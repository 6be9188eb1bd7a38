import UiCodegen.Proofs.Steps

/-!
# A node with a problem leaves nothing behind

A problem confined to a node ends the processing of that node and is reported; the rest of the
document is processed as if the node were not there.  This file shows why that is so: every problem
of a node arises before the node has had any effect, and once an entity has been created, what is
done for it reports its problems itself and fails on violations of the schema only.

Three properties of steps carry the argument.  *Inert* steps only look things up.  *Unfailing* steps
have no problems, so their effects cannot be followed by one.  Steps are *atomic* if they are
unchanged by a problem: inert steps are, and atomic steps followed by unfailing ones are.  Instances
are atomic by induction over the instances inside them.

What a lookup remembers and what it says in the log at the level of debugging are no effects.
-/

namespace UiCodegen.Transpile

/-- What a state holds besides the answers that lookups remember and the log: the code written so
far, the registry, the components, the static strings and names, the diagnostics and the counters.
-/
def State.work (st : State) : State := { st with callable := [], sizes := [], log := [] }

/-- The second state differs from the first in remembered answers and debugging records only. -/
structure State.Untouched (st st' : State) : Prop where
  work : st'.work = st.work
  log : ∃ records : List Log.Record, st'.log = records ++ st.log ∧ ∀ r ∈ records, r.level = .debug

namespace State.Untouched

lemma refl (st : State) : st.Untouched st := ⟨rfl, [], by simp⟩

lemma trans {st₁ st₂ st₃ : State} (h : st₁.Untouched st₂) (h' : st₂.Untouched st₃) :
    st₁.Untouched st₃ := by
  obtain ⟨records, hlog, hdebug⟩ := h.log
  obtain ⟨records', hlog', hdebug'⟩ := h'.log
  refine ⟨h'.work.trans h.work, records' ++ records, by simp [hlog, hlog'], fun r hr => ?_⟩
  exact (List.mem_append.1 hr).elim (hdebug' r) (hdebug r)

lemma reported {st st' : State} (h : st.Untouched st') (p : Problem) (at_ : Pointer) :
    (st'.reported p at_).work = (st.reported p at_).work := by
  have hbody := congrArg State.body h.work
  have hdiagnostics := congrArg State.diagnostics h.work
  have hwork := h.work
  cases st
  cases st'
  simp_all [State.work, State.reported]

end State.Untouched

namespace Run

variable {α β : Type} {x : Run α} {k : α → Run β}

/-! ## Inert steps -/

/-- The steps have no effect, whatever they come to. -/
def Inert (x : Run α) : Prop := x.Ensures fun st _ st' => st.Untouched st'

lemma inert_pure (a : α) : (pure a : Run α).Inert := by
  rintro st r st' ⟨⟩
  exact .refl st

lemma inert_throw (e : Fault) : (throw e : Run α).Inert := by
  rintro st r st' ⟨⟩
  exact .refl st

lemma Decided.inert {x : Run α} (hx : x.Decided) : x.Inert := by
  obtain ⟨a, rfl⟩ | ⟨fault, rfl⟩ := hx
  · exact inert_pure a
  · exact inert_throw fault

lemma inert_get : (get : Run State).Inert := by
  rintro st r st' ⟨⟩
  exact .refl st

lemma inert_modify {f : State → State} (h : ∀ st : State, st.Untouched (f st)) :
    (modify f : Run Unit).Inert := by
  rintro st r st' ⟨⟩
  exact h st

lemma Inert.bind {x : Run α} {k : α → Run β} (hx : x.Inert) (hk : ∀ a, (k a).Inert) :
    (x >>= k).Inert :=
  Ensures.bind hx (fun _ _ _ h => h) fun _ a _ h _ _ hr => h.trans (hk a _ _ _ hr)

/-! ## Unfailing steps -/

/-- The steps have no problems. -/
def Unfailing (x : Run α) : Prop :=
  x.Ensures fun _ r _ => ∀ p at_, r ≠ .error (.problem p at_)

lemma unfailing_pure (a : α) : (pure a : Run α).Unfailing := by
  rintro st r st' ⟨⟩
  simp

lemma unfailing_violate (v : Violation) (at_ : Pointer) : (violate v at_ : Run α).Unfailing := by
  rintro st r st' ⟨⟩
  simp

lemma unfailing_get : (get : Run State).Unfailing := by
  rintro st r st' ⟨⟩
  simp

lemma unfailing_modify (f : State → State) : (modify f : Run Unit).Unfailing := by
  rintro st r st' ⟨⟩
  simp

lemma unfailing_warn (p : Problem) (at_ : Pointer) : (warn p at_).Unfailing := by
  rintro st r st' ⟨⟩
  simp

lemma Unfailing.bind {x : Run α} {k : α → Run β} (hx : x.Unfailing) (hk : ∀ a, (k a).Unfailing) :
    (x >>= k).Unfailing :=
  Ensures.bind hx (fun _ _ _ h p at_ => by simpa using h p at_) fun _ a _ _ _ _ hr => hk a _ _ _ hr

/-- Steps whose problems are reported have none. -/
lemma unfailing_recover (otherwise : α) (x : Run α) : (recover otherwise x).Unfailing := by
  intro st r st' hr
  rw [outcome_recover] at hr
  match hx : x.outcome st with
  | none => simp [hx] at hr
  | some (.ok a, _) | some (.error (.violation v at_), _) | some (.error (.problem p at_), _) =>
    simp only [hx, Option.some.injEq, Prod.mk.injEq] at hr
    simp [← hr.1]

/-! ## Atomic steps -/

def Atomic (x : Run α) : Prop :=
  x.Ensures fun st r st' => (∃ p at_, r = .error (.problem p at_)) → st.Untouched st'

lemma Inert.atomic (hx : x.Inert) : x.Atomic := fun st r st' hr _ => hx st r st' hr

lemma Unfailing.atomic (hx : x.Unfailing) : x.Atomic := by
  rintro st r st' hr ⟨p, at_, hp⟩
  exact absurd hp (hx st r st' hr p at_)

lemma Inert.bind_atomic (hx : x.Inert) (hk : ∀ a, (k a).Atomic) : (x >>= k).Atomic :=
  Ensures.bind hx (fun _ _ _ h _ => h) fun _ a _ h _ _ hr hp => h.trans (hk a _ _ _ hr hp)

lemma Atomic.bind_unfailing (hx : x.Atomic) (hk : ∀ a, (k a).Unfailing) : (x >>= k).Atomic :=
  Ensures.bind hx (fun _ _ _ h hp => h (by simpa using hp))
    fun _ a _ _ _ _ hr ⟨p, at_, hp⟩ => absurd hp (hk a _ _ _ hr p at_)

end Run

open Run

/-! ## Reading a node -/

lemma unfailing_textField (node : Fields) (key : Bytes) (at_ : Pointer) :
    (textField node key at_).Unfailing := by
  unfold textField
  split
  · exact unfailing_pure _
  · exact unfailing_pure _
  · exact unfailing_violate _ _

lemma unfailing_objectField (node : Fields) (key : Bytes) (at_ : Pointer) :
    (objectField node key at_).Unfailing := by
  unfold objectField
  split
  · exact unfailing_pure _
  · exact unfailing_pure _
  · exact unfailing_violate _ _

lemma unfailing_componentName (node : Fields) (kind : Bytes) (at_ : Pointer) :
    (componentName node kind at_).Unfailing := by
  refine (unfailing_textField node _ at_).bind fun id => ?_
  split
  · exact unfailing_pure _
  · exact unfailing_violate _ _

/-- Asking whether a function can be called changes remembered answers only. -/
lemma inert_uncallable? (cfg : Settings) (function : Api.FunctionInfo) :
    (uncallable? cfg function).Inert := by
  have hremember : ∀ answer : Option Uncallable, Run.Inert (do
      modify fun st => { st with callable := (function.name, answer) :: st.callable }
      pure answer) := by
    intro answer
    refine Inert.bind (inert_modify ?_) fun _ => inert_pure _
    exact fun st => ⟨rfl, [], by simp⟩
  refine inert_get.bind fun st => ?_
  split
  · exact inert_pure _
  · dsimp only
    split
    · refine inert_get.bind fun _ => Inert.bind (inert_modify ?_) fun _ =>
        (inert_pure _).bind hremember
      exact fun st => ⟨rfl, [], by simp⟩
    · exact (inert_pure _).bind hremember

/-! ## Creating entities -/

lemma unfailing_nextNumber : nextNumber.Unfailing :=
  (unfailing_modify _).bind fun _ => unfailing_get.bind fun _ => unfailing_pure _

lemma unfailing_createStyle : createStyle.Unfailing :=
  unfailing_nextNumber.bind fun _ => (unfailing_modify _).bind fun _ => (unfailing_modify _).bind
    fun _ =>
    (unfailing_modify _).bind fun _ => unfailing_pure _

lemma atomic_createWidget (cfg : Settings) (type : Bytes) (f : Frame) :
    (createWidget cfg type f).Atomic := by
  unfold createWidget
  dsimp only
  split
  · exact (inert_throw _).atomic
  split
  · exact (inert_throw _).atomic
  refine (inert_uncallable? cfg _).bind_atomic fun why => ?_
  split
  · exact (inert_throw _).atomic
  split
  · exact (inert_throw _).atomic
  · refine (unfailing_nextNumber.bind fun _ => ?_).atomic
    exact (unfailing_modify _).bind fun _ => (unfailing_modify _).bind fun _ => unfailing_pure _

/-! ## Filling entities

Attributes and children report their problems where they arise, so none of them gets out. -/

lemma unfailing_register (key : Bytes) (e : Entity) : (register key e).Unfailing :=
  unfailing_get.bind fun _ => unfailing_modify _

lemma unfailing_registerId (node : Fields) (e : Entity) (at_ : Pointer) :
    (registerId node e at_).Unfailing := by
  refine (unfailing_textField node _ at_).bind fun id => ?_
  cases id with
  | none => exact unfailing_pure _
  | some id =>
    dsimp only
    split
    · exact unfailing_violate _ _
    · exact unfailing_register _ _

lemma unfailing_registerName (node : Fields) (e : Entity) (path : Bytes) (at_ : Pointer) :
    (registerName node e path at_).Unfailing := by
  refine (unfailing_textField node _ at_).bind fun name => ?_
  cases name with
  | none => exact unfailing_pure _
  | some name =>
    dsimp only
    split
    · exact unfailing_violate _ _
    · exact (unfailing_register _ _).bind fun _ => unfailing_pure _

lemma unfailing_registerNode (node : Fields) (e : Entity) (f : Frame) :
    (registerNode node e f).Unfailing :=
  (unfailing_registerId node e f.at_).bind fun _ =>
    (unfailing_registerName node e f.path f.at_).bind fun _ =>
      (unfailing_objectField node _ f.at_).bind fun _ => unfailing_pure _

lemma unfailing_finishGrid (e : Entity) (grid : Grid) : (finishGrid e grid).Unfailing := by
  unfold finishGrid
  split
  · exact ((unfailing_modify _).bind fun _ => unfailing_pure _).bind fun _ => unfailing_pure _
  · exact unfailing_pure _

section

variable (cfg : Settings) (g : Fields → Frame → Run Unit)

lemma unfailing_applyAttributes (e : Entity) (pairs : List (Bytes × Value)) (f : Frame)
    (grid : Grid) : (applyAttributes cfg g e pairs f grid).Unfailing := by
  induction pairs generalizing grid with
  | nil =>
    unfold applyAttributes
    exact unfailing_pure _
  | cons pair rest ih =>
    unfold applyAttributes
    exact (unfailing_recover _ _).bind fun grid => ih grid

lemma unfailing_processChildren (children : List Value) (i : Nat) (f : Frame) :
    (processChildren cfg g children i f).Unfailing := by
  induction children generalizing i with
  | nil =>
    unfold processChildren
    exact unfailing_pure _
  | cons child rest ih =>
    unfold processChildren
    exact (unfailing_recover _ _).bind fun _ => ih (i + 1)

lemma unfailing_populate (node : Fields) (e : Entity) (f : Frame) :
    (populate cfg g node e f).Unfailing := by
  unfold populate
  refine (unfailing_registerNode node e f).bind fun inner =>
    (unfailing_applyAttributes cfg g e node inner {}).bind fun grid =>
      (unfailing_finishGrid e grid).bind fun _ => ?_
  split
  · exact unfailing_pure _
  · split
    · exact unfailing_processChildren cfg g _ 0 _
    · exact unfailing_warn _ _
  · exact unfailing_violate _ _

end

/-! ## Nodes -/

lemma unfailing_defineComponent (node : Fields) (at_ : Pointer) :
    (defineComponent node at_).Unfailing := by
  refine (unfailing_componentName node _ at_).bind fun name =>
    (unfailing_objectField node _ at_).bind fun root => ?_
  cases root with
  | none => exact unfailing_violate _ _
  | some root =>
    refine unfailing_get.bind fun st => ?_
    split
    · exact (unfailing_warn _ _).bind fun _ => unfailing_modify _
    · exact unfailing_modify _

lemma inert_noteIgnored (keys : List Bytes) (at_ : Pointer) : (noteIgnored keys at_).Inert := by
  refine inert_modify fun st => ⟨rfl, _, rfl, fun r hr => ?_⟩
  simp only [List.mem_reverse, List.mem_map] at hr
  obtain ⟨key, -, rfl⟩ := hr
  rfl

lemma atomic_useComponent {g : Fields → Frame → Run Unit} (hg : ∀ node f, (g node f).Atomic)
    (node : Fields) (f : Frame) : (useComponent g node f).Atomic := by
  refine (decided_componentName node _ f.at_).inert.bind_atomic fun name =>
    (decided_objectField node _ f.at_).inert.bind_atomic fun context => inert_get.bind_atomic
      fun st => ?_
  split
  · exact (inert_throw _).atomic
  · exact (inert_noteIgnored _ _).bind_atomic fun _ => hg _ _

/-- A node is atomic if the instances inside it are.  The recursion is over contexts around
contexts; in every other kind of node nothing is left that could fail once there are effects. -/
lemma atomic_processFields (cfg : Settings) {g : Fields → Frame → Run Unit}
    (hg : ∀ node f, (g node f).Atomic) (node : Fields) (f : Frame) :
    (processFields cfg g node f).Atomic := by
  unfold processFields
  refine (decided_textField node _ f.at_).inert.bind_atomic fun type => ?_
  cases NodeKind.ofType type with
  | component => exact (unfailing_defineComponent node f.at_).atomic
  | use => exact atomic_useComponent hg node f
  | context =>
    refine (decided_objectField node _ f.at_).inert.bind_atomic fun values => ?_
    cases values with
    | none => exact (inert_throw _).atomic
    | some values =>
      dsimp only
      split
      · exact (inert_throw _).atomic
      · rename_i body hbody
        have := Fields.sizeOf_lt_of_get?_obj hbody
        exact atomic_processFields cfg hg body _
      · exact (inert_throw _).atomic
  | style =>
    exact unfailing_createStyle.atomic.bind_unfailing fun e => unfailing_populate cfg g node e f
  | widget type =>
    exact (atomic_createWidget cfg type f).bind_unfailing fun e => unfailing_populate cfg g node e f
termination_by sizeOf node

lemma atomic_instantiate (cfg : Settings) (node : Fields) (f : Frame) :
    (instantiate cfg node f).Atomic := by
  intro st r st' hr
  refine instantiate_induction cfg
    (motive := fun _ _ st r => (∃ p at_, r.1 = .error (.problem p at_)) → st.Untouched r.2) ?_ hr
  intro g hg node f st r hr
  exact atomic_processFields cfg (fun node f st r st' hr => hg node f st (r, st') hr) node
    f st r.1 r.2 hr

lemma atomic_processNode (cfg : Settings) (v : Value) (f : Frame) :
    (processNode cfg (instantiate cfg) v f).Atomic := by
  unfold processNode
  split
  · exact atomic_processFields cfg (atomic_instantiate cfg) _ f
  · exact (inert_throw _).atomic

/-- **A node with a problem leaves nothing behind.**  If processing a node ends with a problem,
however deep in contexts and instances the problem arose, then what the state holds is what it held
before.  So the node amounts to one diagnostic and one comment, and the nodes behind it in an array
are processed in the state in front of the node, with that diagnostic and that comment. -/
theorem problem_leaves_no_trace (cfg : Settings) (v : Value) (f : Frame)
    {st st' : State} {p : Problem} {at_ : Pointer}
    (h : (processNode cfg (instantiate cfg) v f).outcome st = some (.error (.problem p at_), st')) :
    st.Untouched st' ∧
      (guarded (processNode cfg (instantiate cfg) v f)).outcome st = some
      (.ok (), st'.reported p at_) ∧
      (let d : Diagnostic := ⟨at_.display, p.message⟩
       (st'.reported p at_).work = { st.work with
         diagnostics := d :: st.diagnostics, body :=
           .comment ("lvglgen: " ++ d.text) :: st.body }) ∧
      ∀ (rest : List Value) (i : Nat) (outer : Frame), f = { outer with at_ := outer.at_.index i } →
        (processChildren cfg (instantiate cfg) (v :: rest) i outer).outcome st =
          (processChildren cfg (instantiate cfg) rest (i + 1) outer).outcome
            (st'.reported p at_) := by
  have hsame : st.Untouched st' := atomic_processNode cfg v f _ _ _ h ⟨p, at_, rfl⟩
  have hguarded : (guarded (processNode cfg (instantiate cfg) v f)).outcome st =
      some (.ok (), st'.reported p at_) := by
    rw [guarded, outcome_recover, h]
  refine ⟨hsame, hguarded, hsame.reported p at_, fun rest i outer hf => ?_⟩
  subst hf
  conv_lhs => unfold processChildren
  rw [outcome_bind, hguarded]

/-- A context around a use of component `c`. -/
def contextAroundUse : Value :=
  .obj [("type", .str "context"), ("values", .obj []), ("for", .obj (useOf "c"))]

/-- A state in which component `c` uses component `x`, which is not defined. -/
def danglingState : State := { components := [("c", useOf "x")] }

/-- The problem arises in the instance of `c`, inside the context. -/
theorem problem_leaves_no_trace_in_instance :
    (processNode bareSettings (instantiate bareSettings) contextAroundUse
        (rootFrame bareSettings)).outcome danglingState =
      some (.error (.problem (.undefinedComponent "x") ⟨["for"]⟩), danglingState) ∧
    danglingState.Untouched danglingState := by
  have h : (processNode bareSettings (instantiate bareSettings) contextAroundUse
      (rootFrame bareSettings)).outcome danglingState =
        some (.error (.problem (.undefinedComponent "x") ⟨["for"]⟩), danglingState) := by
    cbv
  exact ⟨h, (problem_leaves_no_trace _ _ _ h).1⟩

end UiCodegen.Transpile
