import UiCodegen.Proofs.Arguments
import UiCodegen.Proofs.Formatting

/-!
# What is done for one node

Creating an entity, registering it, setting its attributes and finding the target of a `with` block
end in every state: they follow bounded chains of variables, walk down finite ladders of setters and
format values. None of them defines a component or takes back code, and none but the second
registers an entity.  So the components of a state change where the document defines one, and
nowhere else, and the registry where a node is registered.

`SetterEnds` says all that setting an attribute can do.
-/

namespace UiCodegen.Transpile

open Run State

variable {α : Type} {x : Run α} {st st' : State}

/-- The second state has the components of the first, and its code goes on from the code of the
first. -/
structure State.SettledTo (st st' : State) : Prop where
  components : st'.components = st.components
  body : st.body <:+ st'.body
  definitions : st.definitions <:+ st'.definitions

/-- The second state has the registry of the first, besides. -/
structure State.KeptTo (st st' : State) : Prop extends State.SettledTo st st' where
  registry : st'.registry = st.registry

namespace State

instance : Std.Refl SettledTo where
  refl _ := ⟨rfl, List.suffix_refl _, List.suffix_refl _⟩

instance : IsTrans State SettledTo where
  trans _ _ _ h h' :=
    ⟨h'.components.trans h.components, h.body.trans h'.body, h.definitions.trans h'.definitions⟩

instance : Std.Refl KeptTo where
  refl st := ⟨Std.Refl.refl st, rfl⟩

instance : IsTrans State KeptTo where
  trans _ _ _ h h' :=
    ⟨IsTrans.trans _ _ _ h.toSettledTo h'.toSettledTo, h'.registry.trans h.registry⟩

lemma KeptTo.of_eq (h : (st'.components, st'.body, st'.definitions, st'.registry) =
    (st.components, st.body, st.definitions, st.registry)) : st.KeptTo st' := by
  simp only [Prod.mk.injEq] at h
  exact ⟨⟨h.1, h.2.1 ▸ List.suffix_refl _, h.2.2.1 ▸ List.suffix_refl _⟩, h.2.2.2⟩

lemma FormattedTo.kept (h : st.FormattedTo st') : st.KeptTo st' := by
  obtain ⟨comments, hbody⟩ := h.body
  have hfixed := h.fixed
  simp only [State.fixed, Prod.mk.injEq] at hfixed
  exact ⟨⟨hfixed.2.2.1, ⟨_, hbody.symm⟩, h.definitions⟩, hfixed.2.1⟩

end State

abbrev Run.Settles {α : Type} (x : Run α) : Prop := x.Moves SettledTo

/-- Steps that end, define no components and register no entities. -/
abbrev Run.Keeps {α : Type} (x : Run α) : Prop := x.Moves KeptTo

lemma Run.Moves.settles (hx : x.Keeps) : x.Settles := hx.mono fun _ _ h => h.toSettledTo

lemma Run.Moves.keeps (hx : x.Formats) : x.Keeps := hx.mono fun _ _ h => h.kept

lemma keeps_emit (s : Statement) : (emit s).Keeps :=
  moves_modify fun _ => ⟨⟨rfl, List.suffix_cons _ _, List.suffix_refl _⟩, rfl⟩

lemma setterRules_keeps : SetterRules fun _ x => x.Keeps where
  pure := moves_pure
  fail p at_ := moves_throw (.problem p at_)
  bind hx hk := hx.bind hk
  look _ hk := moves_get.bind hk
  note hf := (formatRules_formats.note hf).keeps
  warn p at_ := (formats_warn p at_).keeps
  emit := keeps_emit

section

variable (cfg : Settings) (e : Entity) (f : Frame) (at_ : Pointer) (node : Fields)

lemma formats_followVariables (steps : Nat) (v : Value) (s : Scope) :
    (followVariables at_ steps v s).Formats :=
  formatRules_formats.followVariables at_ steps v s

lemma formats_usable (names : List Bytes) : (usable cfg names).Formats :=
  formatRules_formats.usable cfg names

lemma formats_setterArgs (p : Place) (function : Api.FunctionInfo) (plan : SetterPlan) (v : Value) :
    (setterArgs cfg p function plan v).Formats :=
  formatRules_formats.setterArgs cfg p function plan v

lemma keeps_applySetter (key : Bytes) (raw : Value) : (applySetter cfg e key raw f at_).Keeps :=
  setterRules_keeps.applySetter cfg e f at_ key raw

/-- How setting an attribute can end.  Values are formatted first; the call is written last, and
only if nothing has failed. -/
inductive SetterEnds (cfg : Settings) (e : Entity) (key : Bytes) (st : State) :
    Except Fault Unit → State → Prop
  | failed {st' : State} (fault : Fault) (h : st.FormattedTo st') :
      SetterEnds cfg e key st (.error fault) st'
  /-- An action is set to `false`. -/
  | skipped {st' : State} (h : st.FormattedTo st') : SetterEnds cfg e key st (.ok ()) st'
  | called {st' : State} {setter : Bytes} {args : List Expr} (h : st.FormattedTo st')
      (hsetter : setter ∈ setterNames e key)
        (hfits : (Expr.call setter (.entity e :: args)).Fits cfg) :
      SetterEnds cfg e key st (.ok ())
        { st' with body := .call setter (.entity e :: args) :: st'.body }

variable {cfg e f at_} in
lemma setterEnds_applySetter {key : Bytes} {raw : Value} {r : Except Fault Unit}
    (h : (applySetter cfg e key raw f at_).outcome st = some (r, st')) :
    SetterEnds cfg e key st r st' := by
  unfold applySetter at h
  obtain ⟨⟨v, scope⟩, st₁, h₁, h⟩ | ⟨fault, h₁, rfl⟩ := outcome_bind_eq_some.1 h
  swap
  · exact .failed fault ((formats_followVariables at_ _ raw f.scope).of_outcome h₁)
  have hformatted₁ := (formats_followVariables at_ _ raw f.scope).of_outcome h₁
  obtain ⟨⟨setters, why⟩, st₂, h₂, h⟩ | ⟨fault, h₂, rfl⟩ := outcome_bind_eq_some.1 h
  swap
  · exact .failed fault (IsTrans.trans _ _ _ hformatted₁ ((formats_usable cfg _).of_outcome h₂))
  have hformatted₂ : st.FormattedTo st₂ :=
    IsTrans.trans _ _ _ hformatted₁ ((formats_usable cfg _).of_outcome h₂)
  dsimp only at h
  split at h
  · split at h
    · cases h
      exact .failed _ hformatted₂
    · cases h
      exact .failed _ hformatted₂
  split at h
  · cases h
    exact .failed _ hformatted₂
  rename_i setter plan hfound
  obtain ⟨hmem, hplan⟩ := findSome?_plan hfound
  obtain ⟨hname, hfunction, harity, -⟩ := usable_ok h₂ setter hmem
  obtain ⟨result, st₃, h₃, h⟩ | ⟨fault, h₃, rfl⟩ := outcome_bind_eq_some.1 h
  swap
  · exact .failed fault
      (IsTrans.trans _ _ _ hformatted₂ ((formats_setterArgs cfg _ _ _ _).of_outcome h₃))
  have hformatted₃ : st.FormattedTo st₃ :=
    IsTrans.trans _ _ _ hformatted₂ ((formats_setterArgs cfg _ _ _ _).of_outcome h₃)
  cases result with
  | none =>
    cases h
    exact .skipped hformatted₃
  | some args =>
    cases h
    refine .called hformatted₃ hname ⟨setter, hfunction, ?_⟩
    rw [List.length_cons, length_setterArgs hplan h₃]
    omega

lemma keeps_gridTemplate (grid : Grid) (key : Bytes) (raw : Value) :
    (gridTemplate cfg e grid key raw f at_).Keeps :=
  setterRules_keeps.gridTemplate cfg e f at_ grid key raw

lemma keeps_finishGrid (grid : Grid) : (finishGrid e grid).Keeps :=
  setterRules_keeps.finishGrid e grid

lemma keeps_createStyle : createStyle.Keeps := by
  refine Moves.bind (Moves.bind (moves_modify ?_) fun _ => moves_get.bind fun _ => moves_pure _)
    fun _ =>
    (formats_define _).keeps.bind fun _ => (keeps_emit _).bind fun _ =>
      Moves.bind (moves_modify ?_) fun _ => moves_pure _
  · exact fun _ => .of_eq rfl
  · exact fun _ => .of_eq rfl

lemma keeps_createWidget (type : Bytes) : (createWidget cfg type f).Keeps := by
  unfold createWidget
  dsimp only
  split
  · exact moves_throw _
  split
  · exact moves_throw _
  refine (formats_uncallable? cfg _).keeps.bind fun why => ?_
  split
  · exact moves_throw _
  split
  · exact moves_throw _
  · refine Moves.bind (Moves.bind (moves_modify ?_) fun _ => moves_get.bind fun _ => moves_pure _)
      fun _ =>
      (keeps_emit _).bind fun _ => Moves.bind (moves_modify ?_) fun _ => moves_pure _
    · exact fun _ => .of_eq rfl
    · exact fun _ => .of_eq rfl

lemma keeps_localFor (call : Expr) (result : Bytes) : (localFor call result).Keeps := by
  refine Moves.bind (moves_modify ?_) fun _ => moves_get.bind fun _ => Moves.bind (moves_modify ?_)
    fun _ =>
    (keeps_emit _).bind fun _ => moves_pure _
  · exact fun _ => .of_eq rfl
  · exact fun _ => .of_eq rfl

lemma keeps_withTarget (raw : Value) : (withTarget cfg raw e f at_).Keeps := by
  unfold withTarget
  refine (formats_followVariables at_ _ raw f.scope).keeps.bind fun ⟨v, scope⟩ => ?_
  dsimp only
  split
  · exact moves_throw _
  · refine moves_get.bind fun st => ?_
    split
    · exact moves_pure _
    · exact moves_throw _
  · refine (formats_formatCall cfg _ _ _).keeps.bind fun ⟨call, result⟩ => ?_
    dsimp only
    split
    · exact keeps_localFor _ _
    · exact moves_throw _
  · exact moves_throw _

lemma keeps_blockTarget (block : Fields) : (blockTarget cfg e block f at_).Keeps := by
  unfold blockTarget
  split
  · exact keeps_withTarget cfg e f _ _
  · exact moves_pure _

/-! ## Registering -/

lemma settles_register (key : Bytes) (e : Entity) : (register key e).Settles := by
  refine moves_get.bind fun st => moves_modify ?_
  exact fun _ => ⟨rfl, List.suffix_refl _, List.suffix_refl _⟩

lemma settles_registerNode : (registerNode node e f).Settles := by
  unfold registerNode registerId registerName
  refine Moves.bind ?_ fun _ => Moves.bind ?_ fun _ =>
    (decided_objectField node _ f.at_).moves.bind fun _ => moves_pure _
  · refine (decided_textField node _ f.at_).moves.bind fun id => ?_
    split
    · exact moves_pure _
    · dsimp only
      split
      · exact moves_throw _
      · exact settles_register _ e
  · refine (decided_textField node _ f.at_).moves.bind fun name => ?_
    split
    · exact moves_pure _
    · split
      · exact moves_throw _
      · exact (settles_register _ e).bind fun _ => moves_pure _

end

/-- All that is done for one node settles. -/
lemma NodeStep.settles {cfg : Settings} {α : Type} {x : Run α} (h : NodeStep cfg x) :
    x.Settles := by
  cases h with
  | pure a => exact moves_pure a
  | throw fault => exact moves_throw fault
  | warn p at_ => exact (formats_warn p at_).keeps.settles
  | textField node key at_ => exact (decided_textField node key at_).moves
  | objectField node key at_ => exact (decided_objectField node key at_).moves
  | style => exact keeps_createStyle.settles
  | widget type f => exact (keeps_createWidget cfg f type).settles
  | names node e f => exact settles_registerNode e f node
  | setter e key v f at_ => exact (keeps_applySetter cfg e f at_ key v).settles
  | template e grid key v f at_ => exact (keeps_gridTemplate cfg e f at_ grid key v).settles
  | grid e grid => exact (keeps_finishGrid e grid).settles
  | target e block f at_ => exact (keeps_blockTarget cfg e f at_ block).settles

end UiCodegen.Transpile
