import UiCodegen.Proofs.Formatting

/-!
# What a run does not look at

Few steps of a run look at the components: the definition of a component and its uses.  No step
looks at the log. All other steps are blind.  From a state they come to what they come to from the
bare state, without components and log; they leave the components as they are and write their
records on top of the log.  So from two states that differ in components and log they come to the
same.
-/

namespace UiCodegen.Transpile

namespace State

@[simp] lemma bare_onto (after st : State) : (after.onto st).bare = after.bare := rfl

lemma onto_onto (last after st : State) :
    (last.onto after).onto st = last.onto (after.onto st) := by
  simp only [onto, List.append_assoc]

end State

namespace Run

variable {α β : Type}

/-- The steps do not look at the components and the log. -/
def Blind (x : Run α) :
    Prop := ∀ st, x.outcome st = (x.outcome st.bare).map fun r => (r.1, r.2.onto st)

lemma blind_pure (a : α) : (pure a : Run α).Blind := fun _ => rfl

lemma blind_throw (e : Fault) : (throw e : Run α).Blind := fun _ => rfl

lemma Decided.blind {x : Run α} (hx : x.Decided) : x.Blind := by
  obtain ⟨a, rfl⟩ | ⟨fault, rfl⟩ := hx
  · exact blind_pure a
  · exact blind_throw fault

lemma blind_modify {f : State → State} (hf : ∀ st, f st = (f st.bare).onto st) :
    (modify f : Run Unit).Blind := by
  intro st
  simp only [outcome_modify, Option.map_some, ← hf]

lemma blind_get_bind {k : State → Run α} (hlook : ∀ st, k st = k st.bare)
    (hk : ∀ st, (k st).Blind) : ((get : Run State) >>= k).Blind := by
  intro st
  simp only [outcome_bind, outcome_get]
  rw [← hlook]
  exact hk st st

lemma Blind.bind {x : Run α} {k : α → Run β} (hx : x.Blind) (hk : ∀ a, (k a).Blind) :
    (x >>= k).Blind := by
  intro st
  rw [outcome_bind, outcome_bind, hx st]
  match x.outcome st.bare with
  | none => rfl
  | some (.error e, after) => rfl
  | some (.ok a, after) =>
    simp only [Option.map_some]
    rw [hk a (after.onto st), hk a after, State.bare_onto, Option.map_map]
    refine Option.map_congr fun last _ => ?_
    simp only [Function.comp_apply, State.onto_onto]

end Run

open Run

/-! ## Formatting -/

lemma blind_emit (s : Statement) : (emit s).Blind := blind_modify fun _ => rfl

lemma blind_warn (p : Problem) (at_ : Pointer) : (warn p at_).Blind := fun _ => rfl

lemma setterRules_blind : SetterRules fun _ x => x.Blind where
  pure := blind_pure
  fail p at_ := blind_throw (.problem p at_)
  bind hx hk := hx.bind hk
  look := blind_get_bind
  note hf := blind_modify hf.blind
  warn := blind_warn
  emit := blind_emit

lemma blind_define (d : Definition) : (define d).Blind := setterRules_blind.define d

lemma blind_register (key : Bytes) (e : Entity) : (register key e).Blind := by
  refine blind_get_bind (fun _ => rfl) fun st => blind_modify fun _ => ?_
  simp [State.onto, State.bare]

lemma blind_followVariables (at_ : Pointer) (steps : Nat) (v : Value) (s : Scope) :
    (followVariables at_ steps v s).Blind :=
  setterRules_blind.followVariables at_ steps v s

/-! ## Nodes -/

section

variable (cfg : Settings) (e : Entity) (f : Frame) (at_ : Pointer) (node : Fields)

lemma blind_applySetter (key : Bytes) (raw : Value) : (applySetter cfg e key raw f at_).Blind :=
  setterRules_blind.applySetter cfg e f at_ key raw

lemma blind_gridTemplate (grid : Grid) (key : Bytes) (raw : Value) :
    (gridTemplate cfg e grid key raw f at_).Blind :=
  setterRules_blind.gridTemplate cfg e f at_ grid key raw

lemma blind_finishGrid (grid : Grid) : (finishGrid e grid).Blind :=
  setterRules_blind.finishGrid e grid

lemma blind_nextNumber : nextNumber.Blind :=
  Blind.bind (blind_modify fun _ => rfl) fun _ => blind_get_bind (fun _ => rfl) fun _ =>
    blind_pure _

lemma blind_countEntity : countEntity.Blind := blind_modify fun _ => rfl

lemma blind_createStyle : createStyle.Blind :=
  blind_nextNumber.bind fun _ => (blind_define _).bind fun _ => (blind_emit _).bind fun _ =>
    blind_countEntity.bind fun _ => blind_pure _

lemma blind_createWidget (type : Bytes) : (createWidget cfg type f).Blind := by
  unfold createWidget
  dsimp only
  split
  · exact blind_throw _
  split
  · exact blind_throw _
  refine Blind.bind (setterRules_blind.uncallable? cfg _) fun why => ?_
  split
  · exact blind_throw _
  split
  · exact blind_throw _
  · exact blind_nextNumber.bind fun _ => (blind_emit _).bind fun _ => blind_countEntity.bind
      fun _ => blind_pure _

lemma blind_registerNode : (registerNode node e f).Blind := by
  unfold registerNode registerId registerName
  refine Blind.bind ?_ fun _ => Blind.bind ?_ fun _ =>
    (decided_objectField node _ f.at_).blind.bind fun _ => blind_pure _
  · refine (decided_textField node _ f.at_).blind.bind fun id => ?_
    split
    · exact blind_pure _
    · dsimp only
      split
      · exact blind_throw _
      · exact blind_register _ e
  · refine (decided_textField node _ f.at_).blind.bind fun name => ?_
    split
    · exact blind_pure _
    · split
      · exact blind_throw _
      · exact (blind_register _ e).bind fun _ => blind_pure _

lemma blind_localFor (call : Expr) (result : Bytes) : (localFor call result).Blind :=
  Blind.bind (blind_modify fun _ => rfl) fun _ => blind_get_bind (fun _ => rfl) fun _ =>
    Blind.bind (blind_modify fun _ => rfl) fun _ => (blind_emit _).bind fun _ => blind_pure _

lemma blind_withTarget (raw : Value) : (withTarget cfg raw e f at_).Blind := by
  unfold withTarget
  refine (blind_followVariables at_ _ raw f.scope).bind fun ⟨v, scope⟩ => ?_
  dsimp only
  split
  · exact blind_throw _
  · refine blind_get_bind (fun _ => rfl) fun st => ?_
    split
    · exact blind_pure _
    · exact blind_throw _
  · refine Blind.bind (setterRules_blind.formatCall cfg _ _ _) fun ⟨call, result⟩ => ?_
    dsimp only
    split
    · exact blind_localFor _ _
    · exact blind_throw _
  · exact blind_throw _

lemma blind_blockTarget (block : Fields) : (blockTarget cfg e block f at_).Blind := by
  unfold blockTarget
  split
  · exact blind_withTarget cfg e f _ _
  · exact blind_pure _

end

end UiCodegen.Transpile
