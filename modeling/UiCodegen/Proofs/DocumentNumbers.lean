import UiCodegen.Document.Yaml.Decode
import UiCodegen.Proofs.LosslessEncoding
import UiCodegen.Proofs.ShortestDecimals

/-!
# The numbers of a document

Two formats write numbers in different ways, and what a document holds is a text for each.  From
JSON it is the literal as it was written.  From YAML it is an integer in decimal or the shortest
text of a double, and both are numbers by the grammar of JSON as well (`isNumeral_or_of_decode`);
only the three words for what is no number, `NaN`, `+Inf` and `-Inf`, are not.
-/

namespace UiCodegen.Document

open Json (IsNumeral Within)

variable {literal s text : Bytes} {v : Value}

def notFinite : List Bytes := ["NaN", "+Inf", "-Inf"]

/-- Every number of a value is written by the grammar or is not finite. -/
def NumbersWritten (v : Value) : Prop :=
  ∀ literal, Within (.num literal) v → IsNumeral literal ∨ literal ∈ notFinite

lemma numbersWritten_num :
    NumbersWritten (.num literal) ↔ IsNumeral literal ∨ literal ∈ notFinite := by
  refine ⟨fun h => h literal .refl, fun h other hwithin => ?_⟩
  cases hwithin
  exact h

lemma numbersWritten_arr {items : List Value} (h : ∀ v ∈ items, NumbersWritten v) :
    NumbersWritten (.arr items) := by
  intro literal hwithin
  cases hwithin with
  | item hv hin => exact h _ hv literal hin

lemma numbersWritten_obj {fields : Fields} (h : ∀ field ∈ fields, NumbersWritten field.2) :
    NumbersWritten (.obj fields) := by
  intro literal hwithin
  cases hwithin with
  | field hfield hin => exact h _ hfield literal hin

/-! ## JSON -/

lemma Json.Proper.numbersWritten (h : Json.Proper v) : NumbersWritten v := by
  induction h with
  | null => exact nofun
  | bool => exact nofun
  | str => exact nofun
  | num hnumber => exact numbersWritten_num.2 (.inl (Json.isNumber_iff_isNumeral.1 hnumber))
  | arr _ ih => exact numbersWritten_arr ih
  | obj _ _ ih => exact numbersWritten_obj ih

/-! ## YAML -/

namespace Yaml

lemma integerOf?_ne_float (base : Integer.Base) (digits literal : Bytes) :
    integerOf? base digits ≠ some (.float literal) := by
  unfold integerOf?
  split <;> simp

lemma markedInteger?_ne_float (s literal : Bytes) : markedInteger? s ≠ some (.float literal) := by
  intro h
  simp only [markedInteger?, Option.orElse_eq_or, Option.or_eq_some_iff] at h
  obtain h | ⟨-, h⟩ := h
  all_goals
    split at h
    · exact integerOf?_ne_float _ _ _ h
    · simp [Option.bind_eq_some_iff] at h

lemma isNumeral_of_number? (h : number? s = some (.float literal)) : IsNumeral literal := by
  unfold number? at h
  split at h
  · next hinteger =>
    rw [h] at hinteger
    exact absurd hinteger (integerOf?_ne_float _ _ _)
  · split at h
    · next hparse =>
      cases h
      exact Decimal.isNumeral_general (Decimal.fits_of_parse? hparse)
    · exact absurd h (markedInteger?_ne_float _ _)

lemma mem_notFinite_of_mem_words (h : (s, .float literal) ∈ words) : literal ∈ notFinite := by
  simp only [words, List.mem_cons, Prod.mk.injEq, reduceCtorEq, and_false, false_or,
    Plain.float.injEq, List.not_mem_nil, or_false] at h
  simp only [notFinite, List.mem_cons]
  tauto

lemma numbersWritten_of_classify (h : classify s = .float literal) :
    NumbersWritten (.num literal) := by
  rw [numbersWritten_num]
  unfold classify at h
  split at h
  · next plain hword =>
    subst h
    obtain ⟨before, behind, hwords, -⟩ := List.lookup_eq_some_iff.1 hword
    exact .inr
      (mem_notFinite_of_mem_words (hwords ▸ List.mem_append_right before List.mem_cons_self))
  · left
    split at h
    · cases h
    · split at h
      · split at h
        · next hparse =>
          split at h <;> cases h
          exact Decimal.isNumeral_general (Decimal.fits_of_parse? hparse)
        · cases h
      · split at h
        · obtain hnumber | ⟨-, hfraction⟩ := Option.getD_eq_iff.1 h
          · exact isNumeral_of_number? hnumber
          · cases hfraction
        · cases h

lemma numbersWritten_of_untagged (h : untagged text = .ok v) : NumbersWritten v := by
  unfold untagged at h
  split at h <;> cases h
  · exact nofun
  · exact nofun
  · exact numbersWritten_num.2 (.inl (Decimal.isNumeral_ofInt _))
  · exact numbersWritten_of_classify ‹_›
  · exact nofun

lemma numbersWritten_of_tagged {tag : Bytes} (h : tagged tag text = .ok v) : NumbersWritten v := by
  unfold tagged at h
  split_ifs at h
  · cases h
    exact nofun
  · split at h <;> cases h
    exact nofun
  · split at h <;> cases h
    exact numbersWritten_num.2 (.inl (Decimal.isNumeral_ofInt _))
  · split at h
    · split at h <;> cases h
      exact numbersWritten_num.2 (.inl (Decimal.isNumeral_general (Decimal.fits_of_parse? ‹_›)))
    · cases h
      exact numbersWritten_of_classify ‹_›
    · cases h
  · cases h
    exact nofun

lemma numbersWritten_of_scalarValue {tag : Bytes} {plain : Bool}
    (h : scalarValue tag text plain = .ok v) : NumbersWritten v := by
  unfold scalarValue at h
  split_ifs at h
  · exact numbersWritten_of_untagged h
  · cases h
    exact nofun
  · exact numbersWritten_of_tagged h

lemma forall_mem_of_readAll {α β : Type} {P : β → Prop} {read : α → Option (Except Fault β)}
    (hread : ∀ x v, read x = some (.ok v) → P v) {xs : List α} {vs : List β}
    (h : readAll read xs = some (.ok vs)) :
    ∀ v ∈ vs, P v := by
  induction xs generalizing vs with
  | nil =>
    cases h
    simp
  | cons x xs ih =>
    obtain ⟨_, -, heq⟩ | ⟨v, _ | vs, hv, hvs, heq⟩ := readAll_cons_eq_some_iff.1 h <;> cases heq
    exact List.forall_mem_cons.2 ⟨hread x v hv, ih hvs⟩

/-- Only the parts of a result have to be looked at, wherever the walk comes to an end. -/
lemma numbersWritten_of_valueOf {nodes : List (Nat × Node)} {at_ : Pointer} {node : Node}
    (h : valueOf nodes at_ node = some (.ok v)) : NumbersWritten v := by
  refine valueOf.partial_correctness nodes (fun _ _ r => ∀ v, r = .ok v → NumbersWritten v) ?_ at_
    node _ h v rfl
  rintro read hread at_ node _ hr v rfl
  match node with
  | .scalar _ tag text plain =>
    rw [valueWith] at hr
    split at hr
    · cases hr
      exact numbersWritten_of_scalarValue ‹_›
    · cases hr
  | .sequence _ items =>
    obtain ⟨_ | values, hvalues, heq⟩ := Option.map_eq_some_iff.1 hr <;> cases heq
    exact numbersWritten_arr (forall_mem_of_readAll (fun x v hv => hread _ x.1 _ hv v rfl) hvalues)
  | .mapping _ pairs =>
    obtain ⟨_ | fields, hfields, heq⟩ := Option.map_eq_some_iff.1 hr <;> cases heq
    refine numbersWritten_obj (forall_mem_of_readAll (fun pair field hpair => ?_) hfields)
    obtain ⟨key, value⟩ := pair
    cases key with
    | scalar =>
      obtain ⟨_ | v, hv, heq⟩ := Option.map_eq_some_iff.1 hpair <;> cases heq
      exact hread _ _ _ hv v rfl
    | _ => cases hpair
  | .alias _ anchor =>
    rw [valueWith] at hr
    split at hr
    · exact hread _ _ _ hr v rfl
    · cases hr

end Yaml

/-- The numbers of a document that was read, in either format. -/
lemma isNumeral_or_of_decode (h : Json.decode s = .ok v ∨ Yaml.decode s = .ok v)
    (hwithin : Within (.num literal) v) : IsNumeral literal ∨ literal ∈ notFinite := by
  obtain hjson | hyaml := h
  · exact (Json.proper_of_decode hjson).numbersWritten literal hwithin
  · unfold Yaml.decode at hyaml
    split at hyaml
    · cases hyaml
    · cases hyaml
    · rename_i root nodes _
      cases hwalk : Yaml.valueOf nodes .root root with
      | none =>
        rw [hwalk] at hyaml
        cases hyaml
      | some r =>
        obtain rfl : r = .ok v := by simpa [hwalk] using hyaml
        exact Yaml.numbersWritten_of_valueOf hwalk literal hwithin

end UiCodegen.Document
