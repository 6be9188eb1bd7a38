import UiCodegen.Document.Json.Encode
import UiCodegen.Proofs.Utf8

/-!
# Strings of a JSON document

`Inside` says what may stand between the quotes of a string: the scanner finds the end of exactly
these texts (`scanStringToken_eq_ok_iff`).  Escapes are undone one at a time, and all else is kept.
-/

namespace UiCodegen.Document.Json

open Utf8

variable {n : Nat} {s : Bytes} {e : UInt8}

/-! ## What stands between the quotes -/

/-- The octets that make an escape with the backslash in front of them, `u` apart. -/
def escapeOctets : List UInt8 := [34, 92, 47, 98, 102, 110, 114, 116]

/-- What may stand between the quotes of a string. -/
inductive Inside : Bytes → Prop
  | nil : Inside []
  | plain {c : UInt8} {rest : Bytes} (hquote : c ≠ 34) (hslash : c ≠ 92) (hcontrol : 0x20 ≤ c)
      (hrest : Inside rest) : Inside (c :: rest)
  | escape {e : UInt8} {rest : Bytes} (he : e ∈ escapeOctets) (hrest : Inside rest) :
      Inside (92 :: e :: rest)
  | hex {a b c d : UInt8} {rest : Bytes} (hdigits : ∀ x ∈ [a, b, c, d], isHexDigit x)
      (hrest : Inside rest) : Inside (92 :: 117 :: a :: b :: c :: d :: rest)

lemma mem_escapeOctets : e ∈ escapeOctets ↔
    (e == 34 || e == 92 || e == 47 || e == 98 || e == 102 || e == 110 || e == 114 || e == 116) =
    true := by
  simp [escapeOctets, or_assoc]

lemma ascii_escapeOctets : ∀ e ∈ escapeOctets, e < 0x80 ∧ e ≠ 117 := by
  simp [escapeOctets]

lemma ascii_of_isHexDigit {c : UInt8} (h : isHexDigit c) : c < 0x80 := by
  simp only [isHexDigit, Bytes.isDigit, Bytes.lowerByte, Bytes.isUpper, Bool.or_eq_true,
    Bool.and_eq_true, decide_eq_true_eq] at h
  split at h
  all_goals simp only [UInt8.le_iff_toNat_le, UInt8.lt_iff_toNat_lt, UInt8.reduceToNat] at *; omega

lemma scanString_of_inside {inside : Bytes} (h : Inside inside) (n : Nat) (after : Bytes) :
    scanString .plain n (inside ++ 34 :: after) = .ok (n + inside.length + 1, after) := by
  induction h generalizing n with
  | nil => rfl
  | plain hquote hslash hcontrol _ ih =>
    have hlarge : ¬ _ < (0x20 : UInt8) := UInt8.not_lt.2 hcontrol
    simp only [List.cons_append, scanString, beq_iff_eq, hquote, hslash, hlarge, if_false, ih,
      List.length_cons]
    congr 2
    omega
  | @escape e rest he _ ih =>
    have hne := (ascii_escapeOctets _ he).2
    rw [mem_escapeOctets] at he
    have hscan : ∀ s, scanString .plain n (92 :: e :: s) = scanString .plain (n + 2) s := by
      intro s
      simp [scanString, hne, he]
    rw [List.cons_append, List.cons_append, hscan, ih]
    congr 2
    simp only [List.length_cons]
    omega
  | @hex a b c d rest hdigits _ ih =>
    simp only [List.forall_mem_cons] at hdigits
    obtain ⟨ha, hb, hc, hd, -⟩ := hdigits
    have hscan : ∀ s, scanString .plain n (92 :: 117 :: a :: b :: c :: d :: s) = scanString .plain
        (n + 6) s := by
      intro s
      simp [scanString, ha, hb, hc, hd]
    change scanString .plain n (92 :: 117 :: a :: b :: c :: d :: (rest ++ 34 :: after)) = _
    rw [hscan, ih]
    congr 2
    simp only [List.length_cons]
    omega

lemma scanString_hex {k : Nat} {p : Nat × Bytes} (h : scanString (.hex k) n s = .ok p) :
    ∃ x rest, s = x :: rest ∧ isHexDigit x ∧
      scanString (if k ≤ 1 then .plain else .hex (k - 1)) (n + 1) rest = .ok p := by
  unfold scanString at h
  split at h
  · cases h
  · dsimp only at h
    split at h
    · exact ⟨_, _, rfl, ‹_›, h⟩
    · cases h

lemma inside_of_scanString {m : Nat} {after : Bytes} (h : scanString .plain n s = .ok (m, after)) :
    ∃ inside, Inside inside ∧ s = inside ++ 34 :: after ∧ m = n + inside.length + 1 := by
  induction hlength : s.length using Nat.strong_induction_on generalizing n s with
  | _ length ih =>
    unfold scanString at h
    split at h
    · cases h
    rename_i c rest
    subst hlength
    dsimp only at h
    split_ifs at h with hquote hslash hcontrol
    · cases h
      exact ⟨[], .nil, by simpa using hquote, rfl⟩
    · obtain rfl : c = 92 := by simpa using hslash
      unfold scanString at h
      split at h
      · cases h
      rename_i e rest
      dsimp only at h
      split_ifs at h with hhex hescape
      · obtain rfl : e = 117 := by simpa using hhex
        obtain ⟨a, rest, rfl, ha, h⟩ := scanString_hex h
        obtain ⟨b, rest, rfl, hb, h⟩ := scanString_hex h
        obtain ⟨c, rest, rfl, hc, h⟩ := scanString_hex h
        obtain ⟨d, rest, rfl, hd, h⟩ := scanString_hex h
        obtain ⟨inside, hinside, rfl, rfl⟩ :=
          ih rest.length (by simp only [List.length_cons]; omega) h rfl
        refine ⟨92 :: 117 :: a :: b :: c :: d :: inside, .hex ?_ hinside, rfl, ?_⟩
        · simp [ha, hb, hc, hd]
        · simp only [List.length_cons]
          omega
      · obtain ⟨inside, hinside, rfl, rfl⟩ :=
          ih rest.length (by simp only [List.length_cons]; omega) h rfl
        refine ⟨92 :: e :: inside, .escape (mem_escapeOctets.2 hescape) hinside, rfl, ?_⟩
        simp only [List.length_cons]
        omega
    · obtain ⟨inside, hinside, rfl, rfl⟩ :=
        ih rest.length (by simp only [List.length_cons]; omega) h rfl
      have hplain : Inside (c :: inside) :=
        .plain (by simpa using hquote) (by simpa using hslash) (UInt8.not_lt.1 hcontrol) hinside
      refine ⟨c :: inside, hplain, rfl, ?_⟩
      simp only [List.length_cons]
      omega

/-- The token of a string is its text, and it ends at the first quote that is not escaped. -/
lemma scanStringToken_eq_ok_iff {p : Token × Nat × Bytes} :
    scanStringToken s = .ok p ↔ ∃ inside after, Inside inside ∧ s = inside ++ 34 :: after ∧
      p = (.str (stringText inside), inside.length + 2, after) := by
  have hscanned : ∀ inside after, Inside inside → scanStringToken (inside ++ 34 :: after) =
      .ok (.str (stringText inside), inside.length + 2, after) := by
    intro inside after hinside
    rw [scanStringToken, scanString_of_inside hinside, show 1 + inside.length + 1 =
      inside.length + 2 by omega]
    simp [Except.map]
  constructor
  · intro h
    cases hscan : scanString .plain 1 s with
    | error e =>
      rw [scanStringToken, hscan] at h
      cases h
    | ok q =>
      obtain ⟨inside, hinside, rfl, -⟩ := inside_of_scanString hscan
      rw [hscanned inside q.2 hinside] at h
      cases h
      exact ⟨inside, q.2, hinside, rfl, rfl⟩
  · rintro ⟨inside, after, hinside, rfl, rfl⟩
    exact hscanned inside after hinside

/-! ## Undoing escapes -/

def escapedOctet (e : UInt8) : UInt8 :=
  if e == 98 then 8
  else if e == 102 then 12
  else if e == 110 then 10
  else if e == 114 then 13
  else if e == 116 then 9
  else e

lemma unescape_plain (hs : ∀ c ∈ s, c ≠ 92) (acc rest : Bytes) :
    unescape acc (s ++ rest) = unescape (s.reverse ++ acc) rest := by
  induction s generalizing acc with
  | nil => rfl
  | cons c s ih =>
    obtain ⟨hc, hs⟩ := List.forall_mem_cons.1 hs
    have hstep : unescape acc (c :: (s ++ rest)) = unescape (c :: acc) (s ++ rest) := by
      rw [unescape]
      all_goals simp [hc]
    rw [List.cons_append, hstep, ih hs, List.reverse_cons, List.append_assoc]
    rfl

lemma unescape_escape (he : e ≠ 117) (acc rest : Bytes) :
    unescape acc (92 :: e :: rest) = unescape (escapedOctet e :: acc) rest := by
  rw [unescape]
  · rfl
  all_goals simp [he]

/-- The octets of a character are backslashes only if it is the backslash. -/
lemma ne_of_mem_encode {code : Nat} (h : code ≠ 92) : ∀ b ∈ encode code, b ≠ 92 := by
  rintro b hb rfl
  exact h (eq_of_mem_encode (by decide) hb)

/-- Octets beyond ASCII stand for themselves. -/
lemma Inside.of_append {front rest : Bytes} (hfront : ∀ x ∈ front, 0x80 ≤ x)
    (h : Inside (front ++ rest)) : Inside rest := by
  induction front with
  | nil => exact h
  | cons x front ih =>
    obtain ⟨hx, hfront⟩ := List.forall_mem_cons.1 hfront
    refine ih hfront ?_
    rw [List.cons_append] at h
    generalize front ++ rest = s at h ⊢
    cases h with
    | plain _ _ _ hrest => exact hrest
    | escape _ _ | hex _ _ => exact absurd hx (by decide)

end UiCodegen.Document.Json
