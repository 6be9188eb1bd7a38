import UiCodegen.Proofs.CanonicalTypes
import UiCodegen.Proofs.StringLiterals

/-!
# Text for string parameters

A string of a document that carries no sign is text wherever a string is expected, whether or not it
could also be the name of a constant or the use of a definition: it is put into a literal as it
stands (`format_text`).  Percentages are the exception.  They are read as numbers before it is known
what they are for, and a string parameter gets the number printed again (`format_percentage`).  So a
percentage keeps its octets only if it is spelled the way its number is printed
(`unmarked_text_kept_iff`); `007%` becomes `7%`.
-/

namespace UiCodegen

namespace Form

/-- A string without the signs of references, variables, static strings, colours and escaped
percentages. -/
structure IsUnmarked (s : Bytes) : Prop where
  first : ∀ sign ∈ s.head?, sign ≠ 64 ∧ sign ≠ 36 ∧ sign ≠ 33 ∧ sign ≠ 35
  last : Bytes.endsWith s "%%" = false

/-- A string is read as a percentage: an integer, perhaps with white space around it, in front of
the sign. -/
def IsPercentage (s : Bytes) (n : Int) : Prop :=
  ∃ body, s = body ++ "%" ∧ Integer.parse? (.fixed 10) (Blank.trim body) = some n

lemma isPercentage_iff {s : Bytes} {n : Int} : IsPercentage s n ↔
    ∃ body, Bytes.dropTail? s "%" = some body ∧ Integer.parse? (.fixed 10)
    (Blank.trim body) = some n := by
  refine exists_congr fun body => and_congr_left fun _ =>
    ⟨fun hs => ?_, Api.CType.eq_append_of_dropTail?⟩
  rw [hs, Bytes.dropTail?_append]

lemma IsPercentage.unique {s : Bytes} {m n : Int} (hm : IsPercentage s m) (hn : IsPercentage s n) :
    m = n := by
  obtain ⟨body, hs, hparse⟩ := hm
  obtain ⟨body', hs', hparse'⟩ := hn
  rw [← List.append_cancel_right (hs.symm.trans hs'), hparse] at hparse'
  exact Option.some.inj hparse'

/-- Without a sign at its front or two at its end, a string is a percentage or stands for itself. -/
lemma IsUnmarked.ofString_cases {s : Bytes} (h : IsUnmarked s) :
    (∃ n, IsPercentage s n ∧ ofString s = .percent n) ∨ (∀ n, ¬ IsPercentage s n) ∧
    ofString s = .ident s := by
  simp only [isPercentage_iff]
  cases s with
  | nil =>
    have hnone : Bytes.dropTail? [] "%" = none := by decide
    exact .inr ⟨by simp [hnone], rfl⟩
  | cons sign name =>
    obtain ⟨href, hvar, hstatic, hcolor⟩ := h.first sign rfl
    have htwo : Bytes.dropTail? (sign :: name) "%%" = none := by simp [Bytes.dropTail?, h.last]
    cases hone : Bytes.dropTail? (sign :: name) "%" with
    | none => exact .inr ⟨by simp, by simp [ofString, href, hvar, hstatic, hcolor, htwo, hone]⟩
    | some body =>
      cases hparse : Integer.parse? (.fixed 10) (Blank.trim body) with
      | none =>
          exact .inr
            ⟨by simp [hparse], by simp [ofString, href, hvar, hstatic, hcolor, htwo, hone, hparse]⟩
      | some n =>
        refine .inl ⟨n, ⟨body, rfl, hparse⟩, ?_⟩
        simp [ofString, href, hvar, hstatic, hcolor, htwo, hone, hparse]

end Form

namespace Api.Index

lemma scalarClass_ne_string (name : Bytes) : scalarClass name ≠ .string := by
  unfold scalarClass
  split_ifs <;> decide

lemma describeBase_cls_ne_string (ix : Index) (c : CType) : (ix.describeBase c).cls ≠ .string := by
  unfold describeBase
  dsimp only
  split_ifs
  · simp
  · simp
  · split <;> simp [scalarClass_ne_string]

lemma describePointer_ctype (ix : Index) (c : CType) : (ix.describePointer c).ctype = c := by
  unfold describePointer
  dsimp only
  split_ifs <;> rfl

/-- The type of a string parameter is a pointer of one level, whatever typedefs there are. -/
lemma pointers_of_isStringLike {ix : Index} {ctype : Bytes}
    (h : (ix.describe ctype).isStringLike = true) : (ix.describe ctype).ctype.pointers = 1 := by
  have hpointer : (ix.describe ctype).cls ≠ .string → (ix.describe ctype).ctype.pointers = 1 := by
    intro hcls
    simp only [TypeInfo.isStringLike, hcls, Bool.or_eq_true, beq_iff_eq, Bool.and_eq_true,
      false_or] at h
    exact h.1.2
  unfold describe at hpointer ⊢
  split
  · rename_i hparse
    simp only [hparse] at hpointer
    exact hpointer (by decide)
  · rename_i c hparse
    simp only [hparse] at hpointer
    split_ifs at hpointer ⊢ with harray hone
    · exact hpointer (by simp)
    · rw [describePointer_ctype]
      simpa using hone
    · exact hpointer (describeBase_cls_ne_string ix c)

end Api.Index

namespace Transpile

open Form (IsUnmarked IsPercentage)

section

variable {cfg : Settings} {s ctype : Bytes}
  (hctype : (cfg.index.describe ctype).isStringLike = true) (p : Place)

include hctype

/-- Text is put into a literal as it stands, also where it is the name of a constant or the use of a
definition. -/
lemma format_text (hform : Form.ofString s = .ident s) :
    format cfg p (.str s) ctype = pure (.text (C.quote s)) := by
  rw [format]
  simp only [hform, formatString, formatIdent, if_pos hctype]

/-- A percentage is put into a literal by its number, since a string parameter takes no shares of
the parent. -/
lemma format_percentage {n : Int} (hform : Form.ofString s = .percent n) :
    format cfg p (.str s) ctype = pure (.text (C.quote (Bytes.ofInt n ++ "%"))) := by
  have hshare : isPercentType (cfg.index.describe ctype).ctype = false := by
    simp [isPercentType, Api.Index.pointers_of_isStringLike hctype]
  rw [format]
  simp only [hform, formatString, formatPercent, hshare, hctype, Bool.false_eq_true,
    if_false, if_true]

end

/-- An unmarked string is accepted for a string parameter and becomes one literal.  It denotes the
string just if the string, read as a percentage, is spelled as its number is printed. -/
theorem unmarked_text_kept_iff {cfg : Settings} {s ctype : Bytes}
    (hctype : (cfg.index.describe ctype).isStringLike = true) (p : Place) (st : State)
    (hs : IsUnmarked s) :
    ∃ e text, (format cfg p (.str s) ctype).outcome st = some (.ok e, st) ∧
      (∀ rest, C.readLiteral? (C.prepared (e.render ++ rest)) = some (text, C.prepared rest)) ∧
      (text = s ↔ ∀ n, IsPercentage s n → s = Bytes.ofInt n ++ "%") := by
  rcases hs.ofString_cases with ⟨n, hn, hform⟩ | ⟨hnone, hform⟩
  · refine ⟨.text (C.quote (Bytes.ofInt n ++ "%")), Bytes.ofInt n ++ "%", ?_,
      C.readLiteral?_quote _, ?_⟩
    · rw [format_percentage hctype p hform, Run.outcome_pure]
    · refine ⟨fun heq m hm => ?_, fun hspelled => (hspelled n hn).symm⟩
      rw [hm.unique hn]
      exact heq.symm
  · refine ⟨.text (C.quote s), s, ?_, C.readLiteral?_quote s, ?_⟩
    · rw [format_text hctype p hform, Run.outcome_pure]
    · exact ⟨fun _ n hn => absurd hn (hnone n), fun _ => rfl⟩

/-- The place of a value in a document that binds no variables. -/
def plainPlace :
    Place := { scope := [], path := [], entity := (rootFrame bareSettings).parent, at_ := {} }

theorem half_percentage_kept :
    IsUnmarked "50%" ∧ (bareSettings.index.describe "const char *").isStringLike = true ∧
      ∃ e, (format bareSettings plainPlace (.str "50%") "const char *").outcome
      {} = some (.ok e, {}) ∧
        ∀ rest, C.readLiteral? (C.prepared (e.render ++ rest)) = some
        (Bytes.ofString "50%", C.prepared rest) := by
  have hs : IsUnmarked "50%" := ⟨by decide +kernel, by decide⟩
  have hctype : (bareSettings.index.describe "const char *").isStringLike =
      true := by decide +kernel
  obtain ⟨e, text, hrun, hread, hsame⟩ := unmarked_text_kept_iff hctype plainPlace {} hs
  have hfifty : IsPercentage "50%" 50 := ⟨"50", by decide, by decide⟩
  have htext : text = "50%" := hsame.2 fun n hn => by
    rw [hn.unique hfifty]
    decide
  exact ⟨hs, hctype, e, hrun, htext ▸ hread⟩

/-- Zeros in front of a percentage are lost on the way into a literal. -/
theorem leading_zeros_of_text_lost :
    IsUnmarked "007%" ∧ (bareSettings.index.describe "const char *").isStringLike = true ∧
      (format bareSettings plainPlace (.str "007%") "const char *").outcome {} =
        some (.ok (.text (C.quote "7%")), {}) ∧
      (∀ rest, C.readLiteral? (C.prepared (C.quote "7%" ++ rest)) = some
        (Bytes.ofString "7%", C.prepared rest)) ∧
      Bytes.ofString "7%" ≠ Bytes.ofString "007%" := by
  have hctype : (bareSettings.index.describe "const char *").isStringLike =
      true := by decide +kernel
  have hform : Form.ofString "007%" = .percent 7 := by decide
  refine ⟨⟨by decide +kernel, by decide⟩, hctype, ?_, C.readLiteral?_quote "7%", by decide⟩
  rw [format_percentage hctype plainPlace hform, Run.outcome_pure]
  have hdigits : Bytes.ofInt 7 ++ Bytes.ofString "%" = Bytes.ofString "7%" := by decide
  rw [hdigits]

end Transpile

end UiCodegen
