import UiCodegen.C.Identifier
import UiCodegen.Proofs.Words

/-!
# Identifiers

Making an identifier passes a text through five steps: snake case, an underscore for every octet that is no
letter or digit, no underscores at the ends, one for each run, and a mark where a digit begins or a
reserved word results.  The first four make the text neat (`neat_joined`): small letters, digits and
single underscores with none at the ends.

No step loses a letter or a digit.  Apart from underscores, an identifier is therefore made of those of the
text, in order and in small letters (`filter_joined`).
-/

namespace UiCodegen

/-! ## Octets -/

namespace Bytes

def isAlnum (b : UInt8) : Bool := isLetter b || isDigit b

lemma isAlnum_lowerByte (b : UInt8) : isAlnum (lowerByte b) = isAlnum b := by
  revert b
  decide +kernel

lemma isUpper_lowerByte (b : UInt8) : isUpper (lowerByte b) = false := by
  revert b
  decide +kernel

lemma isUpper_underscore : isUpper 95 = false := by decide

lemma isAlnum_underscore : isAlnum 95 = false := by decide

lemma isInk_of_isAlnum {b : UInt8} (h : isAlnum b = true) : Blank.IsInk b := by
  revert b
  decide +kernel

end Bytes

/-! ## Snake case -/

namespace SnakeCase

/-- Octets that may be written for `b`: no capitals, and no letters and digits but its own in small.
-/
def WrittenFor (b : UInt8) (written : Bytes) : Prop :=
  (∀ c ∈ written, Bytes.isUpper c = false) ∧
    written.filter Bytes.isAlnum = ([b].filter Bytes.isAlnum).map Bytes.lowerByte

lemma writtenFor_small (b : UInt8) : WrittenFor b [Bytes.lowerByte b] := by
  refine ⟨by simpa using Bytes.isUpper_lowerByte b, ?_⟩
  simp only [List.filter_cons, Bytes.isAlnum_lowerByte]
  split <;> rfl

lemma writtenFor_plain (b : UInt8) :
    WrittenFor b
    (if Bytes.lowerByte b == 32 || Bytes.lowerByte b == 95 || Bytes.lowerByte b == 45 ||
      Bytes.lowerByte b == 46 then [95] else [Bytes.lowerByte b]) := by
  split
  · rename_i hmark
    have hother : Bytes.isAlnum b = false := by
      rw [← Bytes.isAlnum_lowerByte]
      simp only [Bool.or_eq_true, beq_iff_eq] at hmark
      rcases hmark with ((h | h) | h) | h <;> rw [h] <;> decide
    exact ⟨by simp [Bytes.isUpper_underscore], by simp [hother, Bytes.isAlnum_underscore]⟩
  · exact writtenFor_small b

lemma WrittenFor.between {b : UInt8} {written : Bytes} (h : WrittenFor b written)
    {front back : Bytes} (hfront : front = [95] ∨ front = []) (hback : back = [95] ∨ back = []) :
    WrittenFor b (front ++ written ++ back) := by
  have hunderscores : ∀ run : Bytes, run = [95] ∨ run = [] →
      (∀ c ∈ run, Bytes.isUpper c = false) ∧ run.filter Bytes.isAlnum = [] := by
    rintro _ (rfl | rfl) <;> simp [Bytes.isUpper_underscore, Bytes.isAlnum_underscore]
  obtain ⟨hsmall, hkept⟩ := h
  obtain ⟨hfsmall, hfkept⟩ := hunderscores front hfront
  obtain ⟨hbsmall, hbkept⟩ := hunderscores back hback
  refine ⟨fun c hc => ?_, by simp [hfkept, hbkept, hkept]⟩
  rcases List.mem_append.1 hc with hc | hc
  · exact (List.mem_append.1 hc).elim (hfsmall c) (hsmall c)
  · exact hbsmall c hc

lemma exists_wordsOf_cons (before : Option UInt8) (b : UInt8) (rest : Bytes) :
    ∃ written, wordsOf before (b :: rest) = written ++ wordsOf (some b) rest ∧
    WrittenFor b written := by
  cases rest with
  | nil => exact ⟨_, by simp only [wordsOf, List.append_nil], writtenFor_plain b⟩
  | cons next rest =>
    rw [wordsOf]
    dsimp only
    split
    · refine ⟨_, congrArg (· ++ _) (List.append_cons _ _ _), (writtenFor_small b).between ?_ ?_⟩
      all_goals split <;> simp
    · exact ⟨_, rfl, writtenFor_plain b⟩

lemma wordsOf_spec (before : Option UInt8) (s : Bytes) :
      (∀ b ∈ wordsOf before s, Bytes.isUpper b = false) ∧
      (wordsOf before s).filter Bytes.isAlnum = (s.filter Bytes.isAlnum).map Bytes.lowerByte := by
  induction s generalizing before with
  | nil => simp [wordsOf]
  | cons b rest ih =>
    obtain ⟨written, heq, hsmall, hkept⟩ := exists_wordsOf_cons before b rest
    obtain ⟨ihsmall, ihkept⟩ := ih (some b)
    rw [heq]
    refine ⟨fun c hc => (List.mem_append.1 hc).elim (hsmall c) (ihsmall c), ?_⟩
    rw [List.filter_append, hkept, ihkept, ← List.map_append, ← List.filter_append,
      List.singleton_append]

end SnakeCase

/-! ## Underscores -/

namespace Bytes

variable {p : UInt8 → Bool}

lemma exists_dropWhile (s : Bytes) :
    ∃ before, s = before ++ s.dropWhile p ∧ ∀ b ∈ before, p b = true :=
  ⟨s.takeWhile p, List.takeWhile_append_dropWhile.symm, fun _ hb => List.mem_takeWhile_imp hb⟩

/-- Trimming takes octets of the kind from both ends, up to others. -/
lemma exists_trimBoth (s : Bytes) :
    (∃ before after, s = before ++ trimBoth p s ++ after ∧ (∀ b ∈ before, p b = true) ∧
      ∀ b ∈ after, p b = true) ∧
      (∀ b ∈ (trimBoth p s).head?, p b = false) ∧ ∀ b ∈ (trimBoth p s).getLast?, p b = false := by
  obtain ⟨before, hbefore, hskip⟩ := exists_dropWhile (p := p) s
  obtain ⟨after, hafter, hskip'⟩ := exists_dropWhile (p := p) (s.dropWhile p).reverse
  have hfront : s.dropWhile p = trimBoth p s ++ after.reverse := by
    simpa [trimBoth, dropEndWhile] using congrArg List.reverse hafter
  refine ⟨⟨before, after.reverse, ?_, hskip, fun b hb => hskip' b (List.mem_reverse.1 hb)⟩,
    fun b hb => ?_, fun b hb => ?_⟩
  · rw [List.append_assoc, ← hfront]
    exact hbefore
  · have hhead := List.head?_dropWhile_not p s
    rw [hfront, List.head?_append, Option.mem_def.1 hb] at hhead
    exact hhead
  · have hlast := List.head?_dropWhile_not p (s.dropWhile p).reverse
    rw [trimBoth, dropEndWhile, List.getLast?_reverse, Option.mem_def] at hb
    rw [hb] at hlast
    exact hlast

end Bytes

namespace C

/-- Two octets of which at most one is an underscore. -/
def UnderscoresApart (a b : UInt8) : Prop := ¬ (a = 95 ∧ b = 95)

lemma squeeze_cons (b : UInt8) (s : Bytes) :
    squeeze (b :: s) = if b = 95 ∧ (squeeze s).head? = some 95 then squeeze s
    else b :: squeeze s := by
  simp [squeeze]

lemma head?_squeeze (s : Bytes) : (squeeze s).head? = s.head? := by
  cases s with
  | nil => rfl
  | cons b s =>
    rw [squeeze_cons]
    split
    · rename_i hscore
      rw [hscore.1, hscore.2, List.head?_cons]
    · rfl

lemma getLast?_squeeze (s : Bytes) : (squeeze s).getLast? = s.getLast? := by
  induction s with
  | nil => rfl
  | cons b s ih =>
    rw [squeeze_cons]
    split
    · rename_i hscore
      have hne : s ≠ [] := by
        rintro rfl
        simp [squeeze] at hscore
      rw [ih, List.getLast?_cons_of_ne_nil hne]
    · rw [List.getLast?_cons, ih, List.getLast?_cons]

lemma isChain_squeeze (s : Bytes) : (squeeze s).IsChain UnderscoresApart := by
  induction s with
  | nil => exact List.IsChain.nil
  | cons b s ih =>
    rw [squeeze_cons]
    split
    · exact ih
    · rename_i hscore
      refine List.isChain_cons.2 ⟨fun c hc hboth => hscore ⟨hboth.1, ?_⟩, ih⟩
      rw [Option.mem_def.1 hc, hboth.2]

lemma filter_squeeze (s : Bytes) : (squeeze s).filter (· != 95) = s.filter (· != 95) := by
  induction s with
  | nil => rfl
  | cons b s ih =>
    rw [squeeze_cons]
    split
    · rename_i hscore
      simp [hscore.1, ih]
    · simp [List.filter_cons, ih]

lemma squeeze_subset (s : Bytes) : squeeze s ⊆ s := by
  induction s with
  | nil => exact fun _ h => h
  | cons b s ih =>
    rw [squeeze_cons]
    split
    · exact List.subset_cons_of_subset b ih
    · exact List.cons_subset_cons b ih

/-! ## Neat texts -/

/-- An octet of an identifier: a small letter, a digit or an underscore. -/
def IsWordOctet (b : UInt8) : Prop := Bytes.isLower b = true ∨ Bytes.isDigit b = true ∨ b = 95

/-- Small letters, digits and single underscores, with none at either end. -/
structure Neat (s : Bytes) : Prop where
  octets : ∀ b ∈ s, IsWordOctet b
  apart : s.IsChain UnderscoresApart
  first : s.head? ≠ some 95
  last : s.getLast? ≠ some 95

/-- The letters and digits of a text in order, in small letters. -/
def bare (s : Bytes) : Bytes := (s.filter Bytes.isAlnum).map Bytes.lowerByte

lemma isWordOctet_wordOctet {b : UInt8} (h : Bytes.isUpper b = false) :
    IsWordOctet (wordOctet b) := by
  unfold wordOctet IsWordOctet
  split
  · rename_i hword
    simp only [Bytes.isLetter, h, Bool.or_false, Bool.or_eq_true, beq_iff_eq] at hword
    tauto
  · exact .inr (.inr rfl)

lemma wordOctet_of_isAlnum {b : UInt8} (h : Bytes.isAlnum b = true) : wordOctet b = b := by
  rw [Bytes.isAlnum] at h
  simp [wordOctet, Bool.or_assoc, h]

lemma wordOctet_of_not_isAlnum {b : UInt8} (h : Bytes.isAlnum b = false) : wordOctet b = 95 := by
  rw [Bytes.isAlnum, Bool.or_eq_false_iff] at h
  simp [wordOctet, h]

lemma filter_map_wordOctet (s : Bytes) :
    (s.map wordOctet).filter (· != 95) = s.filter Bytes.isAlnum := by
  induction s with
  | nil => rfl
  | cons b s ih =>
    rw [List.map_cons, List.filter_cons, List.filter_cons, ih]
    cases h : Bytes.isAlnum b with
    | false => simp [wordOctet_of_not_isAlnum h]
    | true =>
      have hne : b ≠ 95 := by
        rintro rfl
        cases h
      simp [wordOctet_of_isAlnum h, hne]

lemma filter_trim (s : Bytes) : (Blank.trim s).filter Bytes.isAlnum = s.filter Bytes.isAlnum := by
  have hgap : ∀ {gap : Bytes}, Blank.NoInk gap → gap.filter Bytes.isAlnum = [] := fun hgap =>
    List.filter_eq_nil_iff.2 fun b hb halnum => hgap b hb (Bytes.isInk_of_isAlnum halnum)
  obtain ⟨before, after, hs, hbefore, hafter⟩ := Blank.exists_trim s
  conv_rhs => rw [hs]
  rw [List.filter_append, List.filter_append, hgap hbefore, hgap hafter, List.nil_append,
    List.append_nil]

lemma neat_joined (s : Bytes) : Neat (joined s) := by
  obtain ⟨⟨before, after, htrim, -, -⟩, hfirst, hlast⟩ :=
    Bytes.exists_trimBoth (p := (· == 95)) ((SnakeCase.snake s).map wordOctet)
  refine ⟨fun b hb => ?_, isChain_squeeze _, fun h => ?_, fun h => ?_⟩
  · have hmem : b ∈ (SnakeCase.snake s).map wordOctet := by
      rw [htrim]
      simp [squeeze_subset _ hb]
    obtain ⟨c, hc, rfl⟩ := List.mem_map.1 hmem
    exact isWordOctet_wordOctet ((SnakeCase.wordsOf_spec _ _).1 c hc)
  · rw [joined, head?_squeeze] at h
    simpa using hfirst 95 h
  · rw [joined, getLast?_squeeze] at h
    simpa using hlast 95 h

/-- Apart from underscores, what is left of a text are its letters and digits. -/
lemma filter_joined (s : Bytes) : (joined s).filter (· != 95) = bare s := by
  have hunderscores : ∀ {run : Bytes}, (∀ b ∈ run, (b == 95) = true) → run.filter (· != 95) = [] :=
    fun hunderscores =>
    List.filter_eq_nil_iff.2 fun b hb hne => by simp [beq_iff_eq.1 (hunderscores b hb)] at hne
  obtain ⟨⟨before, after, htrim, hbefore, hafter⟩, -, -⟩ :=
    Bytes.exists_trimBoth (p := (· == 95)) ((SnakeCase.snake s).map wordOctet)
  calc (joined s).filter (· != 95)
      = (Bytes.trimBoth (· == 95) ((SnakeCase.snake s).map wordOctet)).filter (· != 95) :=
        filter_squeeze _
    _ = ((SnakeCase.snake s).map wordOctet).filter (· != 95) := by
        conv_rhs => rw [htrim]
        rw [List.filter_append, List.filter_append, hunderscores hbefore, hunderscores hafter, List.nil_append,
          List.append_nil]
    _ = (SnakeCase.snake s).filter Bytes.isAlnum := filter_map_wordOctet _
    _ = ((Blank.trim s).filter Bytes.isAlnum).map Bytes.lowerByte := (SnakeCase.wordsOf_spec _ _).2
    _ = bare s := by rw [filter_trim, bare]

/-! ## Legal identifiers -/

/-- A name that C takes: it begins with a small letter, goes on with small letters, digits and underscores
of which no two stand side by side, is no reserved word, and ends with an underscore only behind one. -/
structure Legal (id : Bytes) : Prop where
  letters : ∃ first rest, id = first :: rest ∧ Bytes.isLower first = true ∧
    ∀ b ∈ rest, IsWordOctet b
  not_reserved : id ∉ keywords
  single_underscores : ¬ [95, 95] <:+: id
  last_underscore : id.getLast? = some 95 → id.dropLast ∈ keywords

lemma Neat.cons {b : UInt8} {s : Bytes} (h : Neat s) (hb : Bytes.isLower b = true) :
    Neat (b :: s) := by
  have hne : b ≠ 95 := by
    rintro rfl
    cases hb
  refine ⟨List.forall_mem_cons.2 ⟨.inl hb, h.octets⟩, ?_, by simpa using hne, ?_⟩
  · exact List.isChain_cons.2 ⟨fun c _ hboth => hne hboth.1, h.apart⟩
  · cases hs : s.getLast? with
    | none => simpa [List.getLast?_cons, hs] using hne
    | some c =>
      have hc : c ≠ 95 := fun heq => h.last (by rw [hs, heq])
      simpa [List.getLast?_cons, hs] using hc

lemma single_underscores_of_isChain {s : Bytes} (h : s.IsChain UnderscoresApart) : ¬ [95, 95] <:+: s := by
  rintro ⟨before, after, rfl⟩
  have hpair := (List.isChain_append.1 (List.isChain_append.1 h).1).2.1
  simp [UnderscoresApart] at hpair

/-- The identifier made of a neat text: a reserved word gets an underscore behind it. -/
def unreserved (id : Bytes) : Bytes := if keywords.contains id then id ++ "_" else id

lemma legal_unreserved {id : Bytes} (h : Neat id)
    (hfirst : ∃ b ∈ id.head?, Bytes.isLower b = true) : Legal (unreserved id) := by
  obtain ⟨first, hhead, hlower⟩ := hfirst
  obtain ⟨rest, hid⟩ : ∃ rest, id = first :: rest := ⟨_, (List.cons_head?_tail hhead).symm⟩
  have hrest : ∀ b ∈ rest, IsWordOctet b := fun b hb => h.octets b (by simp [hid, hb])
  have hscore : Bytes.ofString "_" = [95] := by decide
  have hends : ∀ word ∈ keywords, word.getLast? ≠ some 95 := by decide
  unfold unreserved
  split
  · rename_i hreserved
    rw [hscore]
    constructor
    · refine ⟨first, rest ++ [95], by simp [hid], hlower, fun b hb => ?_⟩
      rcases List.mem_append.1 hb with hb | hb
      · exact hrest b hb
      · exact .inr (.inr (List.mem_singleton.1 hb))
    · exact fun hmem => hends _ hmem (by simp)
    · refine single_underscores_of_isChain
        (List.isChain_append.2 ⟨h.apart, by simp, fun a ha b _ hboth => h.last ?_⟩)
      rw [Option.mem_def.1 ha, hboth.1]
    · exact fun _ => by simpa using hreserved
  · rename_i hreserved
    exact ⟨⟨first, rest, hid, hlower, hrest⟩, by simpa using hreserved,
      single_underscores_of_isChain h.apart, fun hlast => absurd hlast h.last⟩

lemma filter_unreserved (id : Bytes) : (unreserved id).filter (· != 95) = id.filter (· != 95) := by
  have hscore : (Bytes.ofString "_").filter (· != 95) = [] := by decide
  unfold unreserved
  split
  · rw [List.filter_append, hscore, List.append_nil]
  · rfl

/-- A text that begins with a letter: it has `n` in front of a digit, and the empty one is `x`. -/
def initialed : Bytes → Bytes
  | [] => "x"
  | b :: rest => if Bytes.isDigit b then 110 :: b :: rest else b :: rest

lemma identifier_eq (s : Bytes) : identifier s = unreserved (initialed (joined s)) := by
  unfold identifier
  cases joined s with
  | nil => decide
  | cons b rest => rfl

lemma neat_initialed {s : Bytes} (h : Neat s) :
    Neat (initialed s) ∧ ∃ b ∈ (initialed s).head?, Bytes.isLower b = true := by
  have hx : initialed [] = [120] := by decide
  cases s with
  | nil =>
    rw [hx]
    exact ⟨h.cons (by decide), 120, rfl, by decide⟩
  | cons b rest =>
    unfold initialed
    dsimp only
    split
    · exact ⟨h.cons (by decide), 110, rfl, by decide⟩
    · rename_i hdigit
      have hb : b ≠ 95 := by simpa using h.first
      exact ⟨h, b, rfl, by simpa [IsWordOctet, hdigit, hb] using h.octets b (by simp)⟩

lemma filter_initialed {s : Bytes} (h : Neat s) :
    (initialed s).filter (· != 95) = initialed (s.filter (· != 95)) := by
  cases s with
  | nil => decide
  | cons b rest =>
    have hb : b ≠ 95 := by simpa using h.first
    rw [List.filter_cons_of_pos (by simpa using hb)]
    unfold initialed
    dsimp only
    split <;> simp [hb]

/-- Every identifier is legal, and apart from underscores it is made of the letters and digits of the text:
in order, in small letters, with `n` in front of a digit, and `x` if there are none. -/
theorem identifier_is_legal (s : Bytes) :
    Legal (identifier s) ∧ (identifier s).filter (· != 95) = initialed (bare s) := by
  have hneat := neat_joined s
  obtain ⟨hinitialed, hfirst⟩ := neat_initialed hneat
  rw [identifier_eq]
  refine ⟨legal_unreserved hinitialed hfirst, ?_⟩
  rw [filter_unreserved, filter_initialed hneat, filter_joined]

end C

end UiCodegen
