import UiCodegen.Proofs.CanonicalTypes
import UiCodegen.Proofs.Numerals

/-!
# Two readers of integers

The value of an enum member and the body of a definition are read as integers in any C notation,
each by a reader of its own.  Both drop white space and a suffix and read what is left in the base
that it announces.  They part above the signed range: there a member stands for the word with the
same bits and a definition has no value (`readers_of_parseUnsigned?`).
-/

namespace UiCodegen

namespace Integer

open Numeral (AreDigits value digits_of_areDigits)

/-! ## Spellings -/

/-- The ways to write a number without a sign: decimal, with no zero in front, and hexadecimal. -/
inductive Spells : Nat → Bytes → Prop where
  | zero : Spells 0 [48]
  | decimal {s : Bytes} {d : Nat} {ds : List Nat} (hs : AreDigits 10 s (d :: ds)) (hd : d ≠ 0) :
      Spells (value 10 (d :: ds)) s
  | hexadecimal {mark : UInt8} {s : Bytes} {d : Nat} {ds : List Nat}
      (hmark : Bytes.lowerByte mark = 120)
      (hs : AreDigits 16 s (d :: ds)) : Spells (value 16 (d :: ds)) (48 :: mark :: s)

/-- A negative integer has a minus sign in front. -/
def SpellsSigned (i : Int) (s : Bytes) : Prop :=
  ∃ body, Spells i.natAbs body ∧ s = if i < 0 then 45 :: body else body

/-- The octets of spellings: digits, the mark of the base and the sign. -/
def isSpelling (b : UInt8) :
    Bool := Document.Json.isHexDigit b || Bytes.lowerByte b == 120 || b == 45

variable {n : Nat} {s : Bytes}

lemma Spells.isSpelling (h : Spells n s) : ∀ b ∈ s, isSpelling b := by
  have hdigits : ∀ {base s ds}, AreDigits base s ds → ∀ b ∈ s, Integer.isSpelling b :=
    fun hs b hb => by simp [Integer.isSpelling, hs.isHexDigit b hb]
  cases h with
  | zero => exact List.forall_mem_singleton.2 rfl
  | decimal hs => exact hdigits hs
  | @hexadecimal mark _ _ _ hmark hs =>
    have hx : Integer.isSpelling mark := by simp [Integer.isSpelling, hmark]
    exact List.forall_mem_cons.2 ⟨rfl, List.forall_mem_cons.2 ⟨hx, hdigits hs⟩⟩

lemma SpellsSigned.isSpelling {i : Int} (h : SpellsSigned i s) : ∀ b ∈ s, Integer.isSpelling b := by
  obtain ⟨body, hbody, rfl⟩ := h
  split_ifs
  · exact List.forall_mem_cons.2 ⟨rfl, hbody.isSpelling⟩
  · exact hbody.isSpelling

/-! ## Numbers that are read -/

/-- In a text without underscores only the digits count. -/
lemma parseUnsigned_of_bar_notMem {b : UInt8} {rest : Bytes} (hb : b ≠ 48) (hscore : 95 ∉ b :: rest) :
    parseUnsigned .announced (b :: rest) = digits 10 true 0 (b :: rest) := by
  have hcontains : (b :: rest).contains 95 = false := by simpa using hscore
  unfold parseUnsigned
  simp only [List.isEmpty_cons, Bool.false_eq_true, if_false, hcontains, Bool.false_and]
  split
  · exact absurd (List.cons.inj ‹_›).1 hb
  · exact absurd (List.cons.inj ‹_›).1 hb
  · exact bind_pure _

lemma Spells.parseUnsigned (h : Spells n s) (hn : n < 2 ^ 64) :
    parseUnsigned .announced s = .ok n := by
  have hscore : 95 ∉ s := fun hmem => absurd (h.isSpelling 95 hmem) (by decide)
  cases h with
  | zero => decide
  | decimal hs hd =>
    have hread := digits_of_areDigits hs true 0 (by simpa using hn)
    cases hs with
    | @cons b _ rest _ hb =>
      have hzero : b ≠ 48 := by
        rintro rfl
        exact hd (Option.some.inj hb.1).symm
      rw [parseUnsigned_of_bar_notMem hzero hscore, hread, Nat.zero_mul, Nat.zero_add]
  | @hexadecimal mark s d ds hmark hs =>
    have hread := digits_of_areDigits hs true 0 (by simpa using hn)
    have hcontains : (48 :: mark :: s).contains 95 = false := by simpa using hscore
    cases hs with
    | cons =>
      unfold Integer.parseUnsigned
      simp only [List.isEmpty_cons, Bool.false_eq_true, if_false, hcontains, Bool.false_and, hmark]
      rw [Nat.zero_mul, Nat.zero_add] at hread
      exact (bind_pure _).trans hread

lemma parse?_minus (h : Integer.parseUnsigned .announced s = .ok n) (hn : n ≤ 2 ^ 63) :
    parse? .announced (45 :: s) = some (-(n : Int)) := by
  have hrange : n ≤ Nat.pow 2 63 := hn
  simp only [parse?, parse, h, bind, Except.bind, if_true, if_pos hrange, Except.toOption]

end Integer

namespace EnumTable

open Api (MemberRecord isIntegerSuffix)

/-! ## Texts without marks -/

/-- A text with neither quotes nor parentheses. -/
def Unmarked (s : Bytes) : Prop := ∀ b ∈ s, b ≠ 34 ∧ b ≠ 40 ∧ b ≠ 41

instance : DecidablePred Unmarked :=
  fun s => inferInstanceAs (Decidable (∀ b ∈ s, b ≠ 34 ∧ b ≠ 40 ∧ b ≠ 41))

/-- A text without the white space around it and the suffix of an integer. -/
def unsuffixed (s : Bytes) : Bytes := Bytes.dropEndWhile isIntegerSuffix (Blank.trim s)

variable {m : MemberRecord} {s : Bytes}

lemma dropEndWhile_append {p : UInt8 → Bool} {rest : Bytes} (hs : ∀ b ∈ s, p b = false)
    (hrest : ∀ b ∈ rest, p b) : Bytes.dropEndWhile p (s ++ rest) = s := by
  rw [Bytes.dropEndWhile, List.reverse_append, List.dropWhile_append_of_pos (by simpa using hrest),
    List.dropWhile_eq_self_iff.2 fun hlt => by simp [hs], List.reverse_reverse]

lemma stripParens_of_unmarked (h : Unmarked s) (times : Nat) : stripParens times s = s := by
  have hparen : Bytes.ofString "(" = [40] := by decide
  cases times with
  | zero => rfl
  | succ times =>
    cases s with
    | nil => rfl
    | cons b s =>
      have hb : (40 == b) = false := by simpa using Ne.symm (h b List.mem_cons_self).2.1
      simp [stripParens, Bytes.startsWith, List.isPrefixOf, hparen, hb]

lemma integer?_of_unmarked (h : Unmarked s) :
    integer? s = (Integer.parse? .announced (unsuffixed s)).map Int64.ofInt := by
  have htrim : Unmarked (Blank.trim s) := fun b hb => h b (Blank.trim_subset s hb)
  rw [integer?, stripParens_of_unmarked htrim, unsuffixed]

/-- A member has the value that a definition has, and else that of a number without a sign. -/
lemma intValue?_of_unmarked (h : Unmarked m.value) : m.intValue? =
    (integer? m.value).or
    ((Integer.parseUnsigned? .announced (unsuffixed m.value)).map Int64.ofNat) := by
  have hquote : Bytes.trimBoth (· == 34) (Blank.trim m.value) = Blank.trim m.value := by
    have hnot : ∀ b ∈ Blank.trim m.value, (b == 34) = false :=
      fun b hb => by simpa using (h b (Blank.trim_subset _ hb)).1
    rw [Bytes.trimBoth, List.dropWhile_eq_self_iff.2 fun hlt => by simp [hnot]]
    simpa using dropEndWhile_append hnot (List.forall_mem_nil _)
  rw [MemberRecord.intValue?, integer?_of_unmarked h, hquote, ← unsuffixed]
  split_ifs with hnone
  · -- Nothing and `null` are no numbers for the other reader either, which drops the three last
    -- letters of `null`.
    rw [Bool.or_eq_true, List.isEmpty_iff, beq_iff_eq] at hnone
    rw [unsuffixed]
    obtain hempty | hnull := hnone
    · rw [hempty]
      decide
    · rw [hnull]
      decide
  · dsimp only
    cases Integer.parse? .announced (unsuffixed m.value) <;> rfl

/-- Of a number without a sign a member has the word with the same bits, and a definition only if it
is a signed one. -/
lemma readers_of_parseUnsigned? (h : Unmarked m.value) {n : Nat}
    (hn : Integer.parseUnsigned? .announced (unsuffixed m.value) = some n) :
    m.intValue? = some (Int64.ofNat n) ∧ integer? m.value = if n < 2 ^ 63 then some (Int64.ofNat n)
    else none := by
  have hword : Int64.ofInt n = Int64.ofNat n := Int64.ofInt_eq_ofNat
  rw [intValue?_of_unmarked h, integer?_of_unmarked h, hn,
    Integer.parse?_of_parseUnsigned (Integer.parseUnsigned?_eq_some_iff.1 hn)]
  split_ifs <;> simp [hword]

/-! ## Numbers with suffixes -/

lemma plain_of_isSpelling : ∀ b : UInt8, (Integer.isSpelling b → isIntegerSuffix b = false) ∧
    (Integer.isSpelling b ∨ isIntegerSuffix b → Blank.IsInk b ∧ b ≠ 34 ∧ b ≠ 40 ∧ b ≠ 41) := by
  decide +kernel

lemma unsuffixed_spelling {i : Int} {suffix : Bytes} (h : Integer.SpellsSigned i s)
    (hsuffix : ∀ b ∈ suffix, isIntegerSuffix b) :
    Unmarked (s ++ suffix) ∧ unsuffixed (s ++ suffix) = s := by
  have hplain : ∀ b ∈ s ++ suffix, Blank.IsInk b ∧ b ≠ 34 ∧ b ≠ 40 ∧ b ≠ 41 := fun b hb =>
    (plain_of_isSpelling b).2 ((List.mem_append.1 hb).imp (h.isSpelling b) (hsuffix b))
  refine ⟨fun b hb => (hplain b hb).2, ?_⟩
  rw [unsuffixed, Blank.trim_of_ink fun b hb => (hplain b hb).1]
  exact dropEndWhile_append (fun b hb => (plain_of_isSpelling b).1 (h.isSpelling b hb)) hsuffix

/-- **Where the readers agree.**  On a text without quotes and parentheses a member and a definition
have the same value, or both none, just if the text is no number beyond the signed range without a
sign.  An integer from the lowest signed one to the highest unsigned one, in decimal or hexadecimal
digits and with any suffix, gives a member its word, and so it does a definition just if it is a
signed one. -/
theorem integer_readers_agree_iff (m : MemberRecord) :
    (Unmarked m.value → (m.intValue? = integer? m.value ↔
      ∀ n, Integer.parseUnsigned? .announced (unsuffixed m.value) = some n → n < 2 ^ 63)) ∧
    ∀ (i : Int) (s suffix : Bytes), -2 ^ 63 ≤ i → i < 2 ^ 64 → Integer.SpellsSigned i s →
      (∀ b ∈ suffix, isIntegerSuffix b) → m.value = s ++ suffix →
      m.intValue? = some (Int64.ofInt i) ∧ integer? m.value = if i < 2 ^ 63 then some
      (Int64.ofInt i) else none := by
  constructor
  · intro h
    cases hn : Integer.parseUnsigned? .announced (unsuffixed m.value) with
    | none => simp [intValue?_of_unmarked h, hn]
    | some n =>
      obtain ⟨hvalue, hinteger⟩ := readers_of_parseUnsigned? h hn
      rw [hvalue, hinteger]
      split_ifs with hlt <;> simpa using hlt
  · intro i s suffix hlow hhigh hs hsuffix hvalue
    obtain ⟨hunmarked, hrest⟩ := unsuffixed_spelling hs hsuffix
    rw [← hvalue] at hunmarked hrest
    obtain ⟨body, hbody, hsign⟩ := hs
    have hread := hbody.parseUnsigned (by omega)
    by_cases hneg : i < 0
    · have hi : -(i.natAbs : Int) = i := by omega
      have hparse : Integer.parse? .announced s = some i := by
        rw [hsign, if_pos hneg, Integer.parse?_minus hread (by omega), hi]
      rw [intValue?_of_unmarked hunmarked, integer?_of_unmarked hunmarked, hrest, hparse, if_pos
        (by omega)]
      exact ⟨rfl, rfl⟩
    · have hn : Integer.parseUnsigned? .announced (unsuffixed m.value) = some i.natAbs := by
        rw [hrest, hsign, if_neg hneg, Integer.parseUnsigned?_eq_some_iff, hread]
      have hword : Int64.ofNat i.natAbs = Int64.ofInt i := by
        rw [← Int64.ofInt_eq_ofNat, Int.natAbs_of_nonneg (by omega)]
      have hrange : i.natAbs < 2 ^ 63 ↔ i < 2 ^ 63 := by omega
      simpa only [hword, hrange] using readers_of_parseUnsigned? hunmarked hn

/-- A binary number with an underscore, and a negative one with letters of both cases. -/
theorem mixed_numbers_read_alike :
    (Unmarked " 0b101_0L" ∧ MemberRecord.intValue? ⟨"A", " 0b101_0L"⟩ = integer? " 0b101_0L") ∧
    Integer.SpellsSigned (-255) "-0xfF" ∧
      MemberRecord.intValue? ⟨"A", "-0xfF" ++ "uL"⟩ = some (-255) ∧ integer?
      ("-0xfF" ++ "uL") = some (-255) := by
  have hplain : Unmarked " 0b101_0L" := by decide +kernel
  have hten : Integer.parseUnsigned? .announced (unsuffixed " 0b101_0L") =
      some 10 := by decide +kernel
  have hdigits : Numeral.AreDigits 16 [102, 70] [15, 15] :=
    .cons (by decide) (.cons (by decide) .nil)
  have hbody : Integer.Spells 255 [48, 120, 102, 70] := .hexadecimal rfl hdigits
  have hspelled : Integer.SpellsSigned (-255) "-0xfF" := ⟨_, hbody, by decide +kernel⟩
  refine ⟨⟨hplain, ((integer_readers_agree_iff ⟨"A", " 0b101_0L"⟩).1 hplain).2 fun n hn => ?_⟩,
    hspelled,
    (integer_readers_agree_iff ⟨"A", "-0xfF" ++ "uL"⟩).2 (-255) "-0xfF" "uL" (by decide)
      (by decide) hspelled (by decide +kernel) rfl⟩
  obtain rfl : 10 = n := Option.some.inj (hten.symm.trans hn)
  decide

/-- The highest word is the value of a member and not of a definition. -/
theorem highest_word_read_once :
    MemberRecord.intValue? ⟨"A", "0xFFFFFFFFFFFFFFFFu"⟩ = some (-1) ∧
    integer? "0xFFFFFFFFFFFFFFFFu" = none := by
  decide +kernel

end EnumTable

end UiCodegen
