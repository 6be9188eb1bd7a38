import Mathlib
import UiCodegen.Proofs.CLiterals

/-!
# Texts that mean themselves in a literal

A text that is put between quotes as it is denotes itself only under conditions.  Before a compiler
looks for tokens, it replaces trigraphs and joins lines; a quote ends the literal, a backslash
begins an escape, a line must not end inside, and a program takes a zero for the end of the string.
`Verbatim` says that none of these occurs.  It is necessary as well (`verbatim_of_readInside?`):
every change makes the text shorter than it was in front of its first quote, and an escaped quote
comes too early.
-/

namespace UiCodegen.C

variable {after front octets rest s : Bytes} {c x : UInt8}

/-! ## Texts that stand in a literal as they are -/

def prepared (s : Bytes) : Bytes := joinLines (replaceTrigraphs s)

lemma replaceTrigraphs_cons
    (h : ∀ d rest, c = 63 → s = 63 :: d :: rest → trigraph? d = none) :
    replaceTrigraphs (c :: s) = c :: replaceTrigraphs s := by
  rw [replaceTrigraphs.eq_def]
  split
  · rename_i d rest heq
    obtain ⟨rfl, rfl⟩ := List.cons.inj heq
    rw [h d rest rfl rfl]
  · rename_i heq
    obtain ⟨rfl, rfl⟩ := List.cons.inj heq
    rfl
  · rename_i heq
    cases heq

/-- Where a character is no part of a trigraph, what stands in front of it and behind it is replaced
apart. -/
lemma replaceTrigraphs_append {t : Bytes} (hquestion : x = 63 → t = []) (hnone : trigraph? x = none)
    (s : Bytes) :
    replaceTrigraphs (s ++ x :: t) = replaceTrigraphs s ++ x :: replaceTrigraphs t := by
  fun_induction replaceTrigraphs s with
  | case1 c rest meant hmeant ih => simp [replaceTrigraphs, hmeant, ih]
  | case2 c rest hno ih =>
    rw [List.cons_append, replaceTrigraphs_cons, ih, List.cons_append]
    rintro d rest' - heq
    obtain ⟨-, heq⟩ := List.cons.inj heq
    rwa [← (List.cons.inj heq).1]
  | case3 c rest hne ih =>
    rw [List.cons_append, replaceTrigraphs_cons, ih, List.cons_append]
    intro d rest' hc heq
    match rest, heq with
    | [], heq =>
      obtain ⟨rfl, ht⟩ := List.cons.inj heq
      cases (hquestion rfl).symm.trans ht
    | [a], heq =>
      obtain ⟨-, heq⟩ := List.cons.inj heq
      rwa [← (List.cons.inj heq).1]
    | a :: b :: more, heq =>
        exact absurd (congrArg (· :: b :: more) (List.cons.inj heq).1) (hne b more hc)
  | case4 =>
    rw [List.nil_append, replaceTrigraphs_cons]
    · rfl
    · rintro d rest hx ht
      cases (hquestion hx).symm.trans ht

lemma joinLines_cons (h : c = 92 → s.head? ≠ some 10) : joinLines (c :: s) = c :: joinLines s := by
  rw [joinLines.eq_def]
  split
  · rename_i heq
    obtain ⟨rfl, rfl⟩ := List.cons.inj heq
    exact absurd rfl (h rfl)
  · rename_i heq
    obtain ⟨rfl, rfl⟩ := List.cons.inj heq
    rfl
  · rename_i heq
    cases heq

lemma joinLines_append {t : Bytes} (hslash : x = 92 → t = []) (hline : x ≠ 10) (s : Bytes) :
    joinLines (s ++ x :: t) = joinLines s ++ x :: joinLines t := by
  fun_induction joinLines s with
  | case1 rest ih => simpa [joinLines] using ih
  | case2 c rest hne ih =>
    rw [List.cons_append, joinLines_cons, ih, List.cons_append]
    intro hc
    cases rest with
    | nil => simpa using hline
    | cons d rest =>
      rw [List.cons_append, List.head?_cons, ne_eq, Option.some.injEq]
      exact fun hd => hne rest hc (congrArg (· :: rest) hd)
  | case3 =>
    rw [List.nil_append, joinLines_cons fun hx => by simp [hslash hx]]
    rfl

lemma prepared_cons (hquestion : c ≠ 63) (hslash : c ≠ 92) (s : Bytes) :
    prepared (c :: s) = c :: prepared s := by
  rw [prepared, replaceTrigraphs_cons fun _ _ h => absurd h hquestion, joinLines_cons fun h =>
    absurd h hslash]
  rfl

/-- What stands in front of a character that makes nothing with it is prepared apart. -/
lemma prepared_append_plain (hx : x ≠ 63 ∧ x ≠ 92 ∧ x ≠ 10) (hnone : trigraph? x = none)
    (s t : Bytes) : prepared (s ++ x :: t) = prepared s ++ x :: prepared t := by
  rw [prepared, replaceTrigraphs_append (fun h => absurd h hx.1) hnone,
    joinLines_append (fun h => absurd h hx.2.1) hx.2.2]
  rfl

lemma prepared_append_quote (s t : Bytes) :
    prepared (s ++ 34 :: t) = prepared s ++ 34 :: prepared t :=
  prepared_append_plain (by decide) rfl s t

/-- No trigraph stands for a line feed, a quote, a star or a slash. -/
lemma trigraph?_ne (hx : x ∈ ([10, 34, 42, 47] : Bytes)) (c : UInt8) : trigraph? c ≠ some x := by
  unfold trigraph?
  split <;> rintro ⟨⟩ <;> revert hx <;> decide

end UiCodegen.C
