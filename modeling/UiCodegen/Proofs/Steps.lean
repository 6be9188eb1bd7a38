import Mathlib
import UiCodegen.Transpile.Output

/-!
# What steps of a run ensure

Statements about a run are statements about every outcome of its steps.  `Run.Ensures` says that an
outcome stands in a relation to the state in which the steps began, whether they succeeded or
failed; steps that have no outcome ensure everything.  The relations used in this development are
closed under the ways of putting steps together, so each of them comes with one rule for `pure`, one
for faults and one for sequences.
-/

namespace UiCodegen.Transpile

namespace Run

variable {α β : Type}

/-- Every outcome of the steps stands in the relation `Q` to the state in which they began. -/
def Ensures (x : Run α) (Q : State → Except Fault α → State → Prop) : Prop :=
  ∀ st r st', x.outcome st = some (r, st') → Q st r st'

/-- A sequence comes to what its second part comes to, unless its first part fails. -/
lemma outcome_bind_eq_some {x : Run α} {k : α → Run β} {st st' : State} {r : Except Fault β} :
    (x >>= k).outcome st = some (r, st') ↔
      (∃ a st₁, x.outcome st = some (.ok a, st₁) ∧ (k a).outcome st₁ = some (r, st')) ∨
      ∃ e, x.outcome st = some (.error e, st') ∧ r = .error e := by
  rw [outcome_bind]
  match x.outcome st with
  | none => simp
  | some (.ok a, st₁) => simp
  | some (.error e, st₁) =>
    simp only [Option.some.injEq, Prod.mk.injEq, reduceCtorEq, false_and, exists_false, false_or,
      Except.error.injEq]
    constructor
    · rintro ⟨rfl, rfl⟩
      exact ⟨e, ⟨rfl, rfl⟩, rfl⟩
    · rintro ⟨_, ⟨rfl, rfl⟩, rfl⟩
      exact ⟨rfl, rfl⟩

lemma Ensures.bind {x : Run α} {k : α → Run β} {P : State → Except Fault α → State → Prop}
    {Q : State → Except Fault β → State → Prop} (hx : x.Ensures P)
    (hfail : ∀ st e st', P st (.error e) st' → Q st (.error e) st')
    (hk : ∀ st a st₁, P st (.ok a) st₁ →
      ∀ r st', (k a).outcome st₁ = some (r, st') → Q st r st') :
    (x >>= k).Ensures Q := by
  intro st r st' hr
  obtain ⟨a, st₁, hfirst, hsecond⟩ | ⟨e, hfirst, rfl⟩ := outcome_bind_eq_some.1 hr
  · exact hk st a st₁ (hx _ _ _ hfirst) r st' hsecond
  · exact hfail st e st' (hx _ _ _ hfirst)

end Run

/-! ## Fields of nodes -/

/-- The steps have their result or their fault without a look at the state. -/
def Run.Decided {α : Type} (x : Run α) : Prop := (∃ a, x = pure a) ∨ ∃ fault, x = throw fault

lemma decided_textField (node : Fields) (key : Bytes) (at_ : Pointer) :
    (textField node key at_).Decided := by
  unfold textField
  split
  · exact .inl ⟨_, rfl⟩
  · exact .inl ⟨_, rfl⟩
  · exact .inr ⟨_, rfl⟩

lemma decided_objectField (node : Fields) (key : Bytes) (at_ : Pointer) :
    (objectField node key at_).Decided := by
  unfold objectField
  split
  · exact .inl ⟨_, rfl⟩
  · exact .inl ⟨_, rfl⟩
  · exact .inr ⟨_, rfl⟩

lemma decided_componentName (node : Fields) (kind : Bytes) (at_ : Pointer) :
    (componentName node kind at_).Decided := by
  unfold componentName
  obtain ⟨id, hid⟩ | ⟨fault, hid⟩ := decided_textField node "id" at_
  · rw [hid, pure_bind]
    split
    · exact .inl ⟨_, rfl⟩
    · exact .inr ⟨_, rfl⟩
  · exact .inr ⟨fault, by rw [hid]; rfl⟩

/-! ## Small inputs -/

/-- Settings for an API that declares nothing. -/
def bareSettings : Settings := { index := {}, enums := .build [] }

def declare (name result : Bytes) (types : List Bytes) : Api.FunctionInfo where
  name
  result
  resultChain := none
  params := types.map fun ctype => { name := [], ctype, chain := none }
  variadic := false
  doc := []

def settingsOf (functions : List Api.FunctionInfo) : Settings :=
  { index := { declaredFunctions := functions }, enums := .build [] }

def useOf (component : Bytes) :
    Fields := [("type", .str "use-view"), ("id", .str (64 :: component))]

end UiCodegen.Transpile
