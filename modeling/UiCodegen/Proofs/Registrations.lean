import UiCodegen.Proofs.NodeSteps
import UiCodegen.Proofs.Traversal

/-!
# What a run registers, and when

A run registers entities one after the other, under ids and under the paths of names.  `calls` lists
what the processing of a part of a document calls for, in the order in which it does; with the
registrations of the part itself in front (`Call.registrations`) this gives the registrations that a
run makes until it ends (`Finished`) and until it comes to a point (`Made`), whether or not it ends.
At every point the registry is what these registrations make of it.
-/

namespace UiCodegen

/-! ## Registrations -/

/-- The registration of an entity. -/
inductive Registration where
  /-- Under an id, which is given without the `@` in front of it. -/
  | id (name : Bytes) (e : Entity)
  /-- Under a name, which is given as the whole path. -/
  | named (path : Bytes) (e : Entity)
  deriving DecidableEq

variable {f : Frame} {st st' : State} {e : Entity} {node : Fields} {regs : List Registration}
  {call : Call} {at_ : Pointer} {a : Call × State} {regs' : List Registration}
  {parts : List (Call × State)}

namespace Registration

def key : Registration → Bytes
  | .id name _ => "@" ++ name
  | .named path _ => path

def entity : Registration → Entity
  | .id _ e | .named _ e => e

def declares (name : Bytes) : Registration → Bool
  | .id declared _ => declared == name
  | .named .. => false

end Registration

def latest (test : Registration → Bool) (regs : List Registration) : Option Entity :=
  (regs.reverse.find? test).map Registration.entity

lemma latest_cons (test : Registration → Bool) (reg : Registration) (regs : List Registration) :
    latest test (reg :: regs) = (latest test regs).or
    (if test reg then some reg.entity else none) := by
  simp only [latest, List.reverse_cons, List.find?_append, List.find?_singleton]
  cases List.find? test regs.reverse with
  | none => split_ifs <;> rfl
  | some found => rfl

def Registry.replay (r : Registry) (regs : List Registration) : Registry :=
  regs.foldl (fun r reg => (r.register reg.key reg.entity).1) r

namespace Registry

lemma replay_append (r : Registry) (regs regs' : List Registration) :
    r.replay (regs ++ regs') = (r.replay regs).replay regs' := List.foldl_append

lemma get?_register (r : Registry) (key : Bytes) (e : Entity) (other : Bytes) :
    (r.register key e).1.get? other = if key == other then some e else r.get? other := by
  obtain ⟨entries⟩ := r
  change (insert key e entries).lookup other = if key == other then some e else entries.lookup other
  induction entries with
  | nil =>
    by_cases hother : other = key
    · simp [insert, hother]
    · simp [insert, List.lookup_cons, beq_false_of_ne hother, Ne.symm hother]
  | cons entry rest ih =>
    obtain ⟨k, old⟩ := entry
    by_cases hk : k = key
    · subst hk
      by_cases hother : other = k
      · simp [insert, hother]
      · simp [insert, List.lookup_cons, beq_false_of_ne hother, Ne.symm hother]
    · by_cases hother : other = k
      · simp [insert, hk, hother, Ne.symm hk]
      · simp [insert, hk, List.lookup_cons, beq_false_of_ne hother, ih]

/-- A name stands for the entity that was registered under it last. -/
lemma get?_replay (r : Registry) (regs : List Registration) (key : Bytes) :
    (r.replay regs).get? key = (latest (·.key == key) regs).or (r.get? key) := by
  induction regs generalizing r with
  | nil => rfl
  | cons reg regs ih =>
    change ((r.register reg.key reg.entity).1.replay regs).get? key = _
    rw [ih, get?_register, latest_cons, Option.or_assoc]
    split_ifs <;> rfl

end Registry

namespace Transpile

/-- What the id of a node registers; nothing if there is none, or one that is refused. -/
def idRegistrations (node : Fields) (e : Entity) : List Registration :=
  match node.get? "id" with
  | some (.str id) =>
      if (Bytes.trimHead id "@").isEmpty then [] else [.id (Bytes.trimHead id "@") e]
  | _ => []

/-- What the name of a node registers; nothing if there is none, or one that is refused. -/
def nameRegistrations (node : Fields) (e : Entity) (path : Bytes) : List Registration :=
  match node.get? "named" with
  | some (.str name) => if name.isEmpty then [] else [.named (Registry.joinPath path name) e]
  | _ => []

def refusesId (node : Fields) : Bool :=
  match node.get? "id" with
  | none => false
  | some (.str id) => (Bytes.trimHead id "@").isEmpty
  | some _ => true

/-- What a part registers by itself, before anything that it calls for. -/
def Call.registrations : Call → List Registration
  | .inside pairs e f =>
    idRegistrations pairs e ++ if refusesId pairs then [] else nameRegistrations pairs e f.path
  | .node .. | .children .. | .attributes .. | .blocks .. | .block .. => []

lemma outcome_registerId {r : Except Fault Unit}
    (h : (registerId node e at_).outcome st = some (r, st')) :
    st'.registry = st.registry.replay (idRegistrations node e) ∧
      (refusesId node = true ↔ ∃ fault, r = .error fault) := by
  unfold registerId textField at h
  unfold idRegistrations refusesId
  cases hid : node.get? "id" with
  | none =>
    rw [hid] at h
    cases h
    exact ⟨rfl, by simp⟩
  | some v =>
    rw [hid] at h
    cases v with
    | str id =>
      simp only [pure_bind] at h
      dsimp only
      split_ifs at h ⊢ with hempty
      · cases h
        exact ⟨rfl, iff_of_true hempty ⟨_, rfl⟩⟩
      · cases h
        exact ⟨rfl, iff_of_false hempty (by simp)⟩
    | _ =>
      cases h
      exact ⟨rfl, by simp⟩

lemma outcome_registerName {path : Bytes}
    {r : Except Fault Bytes} (h : (registerName node e path at_).outcome st = some (r, st')) :
    st'.registry = st.registry.replay (nameRegistrations node e path) := by
  unfold registerName textField at h
  unfold nameRegistrations
  cases hname : node.get? "named" with
  | none =>
    rw [hname] at h
    cases h
    rfl
  | some v =>
    rw [hname] at h
    cases v with
    | str name =>
      simp only [pure_bind] at h
      dsimp only
      split_ifs at h ⊢ with hempty
      · cases h
        rfl
      · cases h
        rfl
    | _ =>
      cases h
      rfl

/-- Registering a node makes its registrations, also if the run ends there. -/
lemma outcome_registerNode {r : Except Fault Frame}
    (h : (registerNode node e f).outcome st = some (r, st')) :
    st'.registry = st.registry.replay (Call.inside node e f).registrations := by
  rw [Call.registrations, Registry.replay_append]
  obtain ⟨_, st₁, hid, h⟩ | ⟨fault, hid, rfl⟩ := Run.outcome_bind_eq_some.1 h
  · obtain ⟨hregistry, hrefused⟩ := outcome_registerId hid
    rw [if_neg (by simp [hrefused]), ← hregistry]
    obtain ⟨path, st₂, hname, h⟩ | ⟨fault, hname, rfl⟩ := Run.outcome_bind_eq_some.1 h
    · rw [← outcome_registerName hname]
      obtain ⟨context, hcontext⟩ | ⟨fault, hcontext⟩ := decided_objectField node "context" f.at_
      · rw [hcontext] at h
        cases h
        rfl
      · rw [hcontext] at h
        cases h
        rfl
    · exact outcome_registerName hname
  · obtain ⟨hregistry, hrefused⟩ := outcome_registerId hid
    rw [if_pos (hrefused.2 ⟨fault, rfl⟩)]
    exact hregistry

/-! ## What is called for, in order -/

def following {α β : Type} (x : Run α) (st : State) (next : α → State → List β) : List β :=
  match x.outcome st with
  | some (.ok a, st') => next a st'
  | _ => []

section

variable {α β : Type} {x : Run α} {st st' : State} {next : α → State → List β}

lemma following_ok {a : α} (h : x.outcome st = some (.ok a, st')) :
    following x st next = next a st' := by
  rw [following, h]

lemma following_error {fault : Fault} (h : x.outcome st = some (.error fault, st')) :
    following x st next = [] := by
  rw [following, h]

end

/-- What one `with` block or several call for. -/
def withCalls (e : Entity) (v : Value) (f : Frame) (at_ : Pointer) (st : State) :
    List (Call × State) :=
  match v with
  | .obj block => [(.block e block f at_, st)]
  | .arr blocks => [(.blocks e blocks 0 f at_, st)]
  | _ => []

/-- What processing a part in a state calls for, one after the other, with the states in which these
calls begin. -/
def calls (cfg : Settings) : Call → State → List (Call × State)
  | .node (.obj node) f, st =>
    following (textField node "type" f.at_) st fun type _ =>
      match NodeKind.ofType type with
      | .component => []
      | .use =>
        following (componentName node "use-view" f.at_) st fun name _ =>
          following (objectField node "context" f.at_) st fun context _ =>
            match st.components.lookup name with
            | none => []
            | some root =>
              [(.node (.obj root) { f with scope := f.scope.extend context },
                { st with log := ignoredNotes node f.at_ ++ st.log })]
      | .context =>
        following (objectField node "values" f.at_) st fun values _ =>
          match values, Fields.get? node "for" with
          | some values, some (.obj body) =>
            [(.node (.obj body)
              { f with scope := f.scope.extend (some values), at_ := f.at_.key "for" }, st)]
          | _, _ => []
      | .style => following createStyle st fun e st' => [(.inside node e f, st')]
      | .widget type => following (createWidget cfg type f) st fun e st' =>
          [(.inside node e f, st')]
  | .node _ _, _ => []
  | .children [] _ _, _ => []
  | .children (v :: rest) i f, st =>
    (.node v { f with at_ := f.at_.index i }, st) ::
      following (guarded (processNode cfg (instantiate cfg) v { f with at_ := f.at_.index i })) st
        fun _ st' =>
        [(.children rest (i + 1) f, st')]
  | .inside node e f, st =>
    following (registerNode node e f) st fun inner st₁ =>
      (.attributes e node inner {}, st₁) ::
        following (applyAttributes cfg (instantiate cfg) e node inner {}) st₁ fun grid st₂ =>
          following (finishGrid e grid) st₂ fun _ st₃ =>
            match node.get? "children" with
            | some (.arr nodes) =>
              if e.isPointer then
                [(.children nodes 0 { inner with parent := e, at_ := f.at_.key "children" }, st₃)]
              else []
            | _ => []
  | .attributes _ [] _ _, _ => []
  | .attributes e ((key, v) :: rest) f grid, st =>
    (if key == "with" then withCalls e v f (f.at_.key key) st else []) ++
      following (applyAttributes cfg (instantiate cfg) e [(key, v)] f grid) st fun grid' st' =>
        [(.attributes e rest f grid', st')]
  | .blocks e (.obj block :: rest) i f at_, st =>
    (.block e block f (at_.index i), st) ::
      following (guarded (withBlock cfg (instantiate cfg) e block f (at_.index i))) st fun _ st' =>
        [(.blocks e rest (i + 1) f at_, st')]
  | .blocks _ _ _ _ _, _ => []
  | .block e block f at_, st =>
    following (blockTarget cfg e block f at_) st fun target st' =>
      match block.get? "do" with
      | some (.obj inner) => [(.inside inner target { f with at_ := at_.key "do" }, st')]
      | _ => []

lemma mem_calls {cfg : Settings} {b : Call × State} (h : Calls cfg a b) :
    b ∈ calls cfg a.1 a.2 := by
  cases h <;> simp [calls, withCalls, following, *]

/-! ## The registrations of a run -/

/-- Parts that are processed one after the other come to an end, and the registrations are those
that they make. -/
inductive Finished (cfg : Settings) : List (Call × State) → List Registration → Prop
  | nil : Finished cfg [] []
  | cons {call : Call} {st : State} {rest : List (Call × State)} {regs regs' : List Registration}
      (hinner : Finished cfg (calls cfg call st) regs) (hrest : Finished cfg rest regs') :
      Finished cfg ((call, st) :: rest) (call.registrations ++ regs ++ regs')

/-- The processing of a part comes to another, and the registrations are those that it has made by
then. -/
inductive Made (cfg : Settings) : Call × State → List Registration → Call × State → Prop
  | here (a : Call × State) : Made cfg a [] a
  | within {call : Call} {st : State} {b c : Call × State} {earlier later : List (Call × State)}
      {regs regs' : List Registration} (hcalls : calls cfg call st = earlier ++ b :: later)
      (hearlier : Finished cfg earlier regs) (hb : Made cfg b regs' c) :
      Made cfg (call, st) (call.registrations ++ regs ++ regs') c

section

variable {cfg : Settings}

lemma Finished.unique (h : Finished cfg parts regs) (h' : Finished cfg parts regs') :
    regs = regs' := by
  induction h generalizing regs' with
  | nil =>
    cases h'
    rfl
  | cons _ _ ihinner ihrest =>
    cases h' with
    | cons hinner' hrest' => rw [ihinner hinner', ihrest hrest']

lemma Finished.append {parts' : List (Call × State)} (h : Finished cfg parts regs)
    (h' : Finished cfg parts' regs') : Finished cfg (parts ++ parts') (regs ++ regs') := by
  induction h with
  | nil => exact h'
  | cons hinner _ _ ih =>
    rw [List.append_assoc]
    exact .cons hinner ih

lemma Finished.of_cons {rest : List (Call × State)} (h : Finished cfg (a :: rest) regs) :
    ∃ first later, Finished cfg [a] first ∧ Finished cfg rest later ∧ regs = first ++ later := by
  cases h with
  | cons hinner hrest => exact ⟨_, _, .cons hinner .nil, hrest, by simp⟩

lemma finished_single
    (h : Finished cfg (calls cfg call st) regs) :
    Finished cfg [(call, st)] (call.registrations ++ regs) := by
  have hsingle := Finished.cons h .nil
  rwa [List.append_nil] at hsingle

end

/-! ## Accounts of steps -/

namespace Run

variable {α β : Type} {cfg : Settings} {st : State} {parts : List (Call × State)} {x : Run α}
  {k : α → Run β} {next : α → State → List (Call × State)}

/-- The steps process the parts: if they come to an end, so do the parts, and the registry is what
the registrations of the parts make of it. -/
def Processes (cfg : Settings) (parts : List (Call × State)) (st : State) (x : Run α) : Prop :=
  ∀ r st', x.outcome st = some (r, st') → ∃ regs, Finished cfg parts regs ∧ st'.registry =
    st.registry.replay regs

lemma Keeps.processes (hx : x.Keeps) : x.Processes cfg [] st :=
  fun _ _ hr => ⟨[], .nil, (Moves.of_outcome hx hr).registry⟩

lemma processes_throw (fault : Fault) : (throw fault : Run α).Processes cfg [] st :=
  Keeps.processes (moves_throw fault)

lemma processes_pure (a : α) : (pure a : Run α).Processes cfg [] st :=
  Keeps.processes (moves_pure a)

/-- Steps that register nothing make way for what follows them. -/
lemma processes_bind (hx : x.Keeps)
    (hk : ∀ a st', x.outcome st = some (.ok a, st') → (k a).Processes cfg (next a st') st') :
    (x >>= k).Processes cfg (following x st next) st := by
  intro r st' hr
  obtain ⟨a, st₁, hfirst, hsecond⟩ | ⟨fault, hfirst, rfl⟩ := outcome_bind_eq_some.1 hr
  · have hsame := (Moves.of_outcome hx hfirst).registry
    obtain ⟨regs, hregs, hregistry⟩ := hk a st₁ hfirst r st' hsecond
    rw [following_ok hfirst]
    exact ⟨regs, hregs, by rw [hregistry, hsame]⟩
  · rw [following_error hfirst]
    exact ⟨[], .nil, (Moves.of_outcome hx hfirst).registry⟩

lemma Decided.processes_bind
    (hx : x.Decided) (hk : ∀ a, x = pure a → (k a).Processes cfg (next a st) st) :
    (x >>= k).Processes cfg (following x st next) st := by
  obtain ⟨a, ha⟩ | ⟨fault, hfault⟩ := hx
  · have hka := hk a ha
    rw [ha, pure_bind]
    exact hka
  · rw [hfault]
    exact processes_throw fault

/-- Parts are processed, and then what follows them. -/
lemma Processes.bind {y : Run α}
    (hx : x.Processes cfg parts st) (hy : ∀ r, x.outcome st = some r → y.outcome st = some r)
    (hk : ∀ a st', x.outcome st = some (.ok a, st') → (k a).Processes cfg (next a st') st') :
    (x >>= k).Processes cfg (parts ++ following y st next) st := by
  intro r st' hr
  obtain ⟨b, st₁, hfirst, hsecond⟩ | ⟨fault, hfirst, rfl⟩ := outcome_bind_eq_some.1 hr
  · obtain ⟨regs, hregs, hregistry⟩ := hx _ _ hfirst
    obtain ⟨regs', hregs', hregistry'⟩ := hk b st₁ hfirst r st' hsecond
    rw [following_ok (hy _ hfirst)]
    exact ⟨regs ++ regs',
      hregs.append hregs', by rw [hregistry', hregistry, Registry.replay_append]⟩
  · obtain ⟨regs, hregs, hregistry⟩ := hx _ _ hfirst
    rw [following_error (hy _ hfirst), List.append_nil]
    exact ⟨regs, hregs, hregistry⟩

lemma Processes.bind_pure (hx : x.Processes cfg parts st) (b : β) :
    (x >>= fun _ => pure b).Processes cfg parts st := by
  intro r st' hr
  obtain ⟨_, _, hfirst, ⟨⟩⟩ | ⟨_, hfirst, -⟩ := outcome_bind_eq_some.1 hr
  · exact hx _ _ hfirst
  · exact hx _ _ hfirst

lemma Processes.recover (hx : x.Processes cfg parts st) (otherwise : α) :
    (recover otherwise x).Processes cfg parts st := by
  intro r st' hr
  rw [outcome_recover] at hr
  match hout : x.outcome st with
  | none => simp [hout] at hr
  | some (.ok a, st₁) =>
    rw [hout] at hr
    cases hr
    exact hx _ _ hout
  | some (.error (.violation v at_), st₁) =>
    rw [hout] at hr
    cases hr
    exact hx _ _ hout
  | some (.error (.problem p at_), st₁) =>
    rw [hout] at hr
    cases hr
    obtain ⟨regs, hregs, hregistry⟩ := hx _ _ hout
    exact ⟨regs, hregs, hregistry⟩

/-- A part that registers nothing by itself is processed if what it calls for is. -/
lemma Processes.single (hx : x.Processes cfg (calls cfg call st) st)
    (hown : call.registrations = []) : x.Processes cfg [(call, st)] st := by
  intro r st' hr
  obtain ⟨regs, hregs, hregistry⟩ := hx r st' hr
  have hsingle := finished_single hregs
  rw [hown, List.nil_append] at hsingle
  exact ⟨regs, hsingle, hregistry⟩

end Run

open Run

/-- What is inside a node is registered, and then what follows is processed. -/
lemma processes_inside {cfg : Settings} {k : Frame → Run Unit}
    {next : Frame → State → List (Call × State)}
    (hcalls : calls cfg (.inside node e f) st = following (registerNode node e f) st next)
    (hk : ∀ inner st', (registerNode node e f).outcome st = some (.ok inner, st') →
      (k inner).Processes cfg (next inner st') st') :
    (registerNode node e f >>= k).Processes cfg [(.inside node e f, st)] st := by
  intro r st' hr
  obtain ⟨inner, st₁, hfirst, hsecond⟩ | ⟨fault, hfirst, rfl⟩ := outcome_bind_eq_some.1 hr
  · obtain ⟨regs, hregs, hregistry⟩ := hk inner st₁ hfirst r st' hsecond
    rw [following_ok hfirst] at hcalls
    refine ⟨_, finished_single (hcalls.symm ▸ hregs), ?_⟩
    rw [hregistry, outcome_registerNode hfirst, Registry.replay_append]
  · rw [following_error hfirst] at hcalls
    refine ⟨_, finished_single (hcalls.symm ▸ Finished.nil), ?_⟩
    rw [List.append_nil, outcome_registerNode hfirst]

/-- Instances are those of a run, as far as they end, and process the nodes of components. -/
structure TracedInstances (cfg : Settings) (g : Fields → Frame → Run Unit) : Prop where
  approached (node : Fields) (f : Frame) : (g node f).ApproachedBy fun _ => instantiate cfg node f
  processes (node : Fields) (f : Frame) (st : State) : (g node f).Processes cfg
    [(.node (.obj node) f, st)] st

section

variable {cfg : Settings} {g : Fields → Frame → Run Unit}

lemma processes_defineComponent (node : Fields) (at_ : Pointer) (st : State) :
    (defineComponent node at_).Processes cfg [] st := by
  unfold defineComponent
  obtain ⟨name, hname⟩ | ⟨fault, hname⟩ := decided_componentName node "component" at_
  · obtain ⟨root, hroot⟩ | ⟨fault, hroot⟩ := decided_objectField node "root" at_
    · rw [hname, pure_bind, hroot, pure_bind]
      cases root with
      | none => exact processes_throw _
      | some root =>
        intro r st' hr
        rw [outcome_bind, outcome_get] at hr
        dsimp only at hr
        split_ifs at hr
        · cases hr
          exact ⟨[], .nil, rfl⟩
        · cases hr
          exact ⟨[], .nil, rfl⟩
    · rw [hname, pure_bind, hroot]
      exact processes_throw fault
  · rw [hname]
    exact processes_throw fault

lemma processes_useComponent (hg : TracedInstances cfg g) (node : Fields) (f : Frame) (st : State) :
    (useComponent g node f).Processes cfg
      (following (componentName node "use-view" f.at_) st fun name _ =>
        following (objectField node "context" f.at_) st fun context _ =>
          match st.components.lookup name with
          | none => []
          | some root =>
            [(.node (.obj root) { f with scope := f.scope.extend context },
              { st with log := ignoredNotes node f.at_ ++ st.log })]) st := by
  unfold useComponent
  refine (decided_componentName node _ f.at_).processes_bind fun name _ =>
    (decided_objectField node _ f.at_).processes_bind fun context _ => ?_
  intro r st' hr
  rw [outcome_bind, outcome_get] at hr
  cases hroot : st.components.lookup name with
  | none =>
    simp only [hroot] at hr
    cases hr
    exact ⟨[], .nil, rfl⟩
  | some root =>
    simp only [hroot] at hr
    obtain ⟨_, _, ⟨⟩, hinstance⟩ | ⟨_, hnote, -⟩ := outcome_bind_eq_some.1 hr
    · exact hg.processes root _ _ r st' hinstance
    · cases hnote

/-- Setting one attribute processes its `with` blocks. -/
lemma processes_attribute {key : Bytes} {v : Value}
    (hwith : (applyWith cfg g e v f (f.at_.key key)).Processes cfg
      (withCalls e v f (f.at_.key key) st) st)
    (grid : Grid) :
    (applyAttributes cfg g e [(key, v)] f grid).Processes cfg
      (if key == "with" then withCalls e v f (f.at_.key key) st else []) st := by
  rw [applyAttributes_single]
  refine Processes.recover ?_ grid
  by_cases hkey : key == "with"
  · rw [if_pos hkey, if_pos hkey]
    exact hwith.bind_pure grid
  · rw [if_neg hkey, if_neg hkey]
    split_ifs
    · exact processes_pure _
    · exact Keeps.processes (keeps_gridTemplate cfg e f _ grid key v)
    · exact (Keeps.processes (keeps_applySetter cfg e f _ key v)).bind_pure grid

variable (hg : TracedInstances cfg g)
include hg

mutual

/-- The induction is the one that processing itself ends by. -/
lemma processes_processNode (v : Value) (f : Frame) (st : State) :
    (processNode cfg g v f).Processes cfg [(.node v f, st)] st := by
  unfold processNode
  match v with
  | .obj node => exact processes_processFields node f st
  | .null | .bool _ | .num _ | .str _ | .arr _ => exact (processes_throw _).single rfl
termination_by (sizeOf v, 0)

lemma processes_processFields (node : Fields) (f : Frame) (st : State) :
    (processFields cfg g node f).Processes cfg [(.node (.obj node) f, st)] st := by
  rw [processFields_eq]
  refine Processes.single ?_ rfl
  refine (decided_textField node "type" f.at_).processes_bind fun type htype => ?_
  cases hkind : NodeKind.ofType type with
  | component => exact processes_defineComponent node f.at_ st
  | use => exact processes_useComponent hg node f st
  | context =>
    refine (decided_objectField node "values" f.at_).processes_bind fun values _ => ?_
    cases values with
    | none => exact processes_throw _
    | some values =>
      cases hbody : node.get? "for" with
      | none => exact processes_throw _
      | some v =>
        match v, hbody with
        | .obj body, hbody =>
          have := Fields.sizeOf_lt_of_get?_obj hbody
          exact processes_processFields body _ st
        | .null, _ | .bool _, _ | .num _, _ | .str _, _ | .arr _, _ => exact processes_throw _
  | style => exact processes_bind keeps_createStyle fun e st' _ => processes_populate node e f st'
  | widget type =>
    exact processes_bind (keeps_createWidget cfg f type) fun e st' _ =>
      processes_populate node e f st'
termination_by (sizeOf node, 2)

lemma processes_populate (node : Fields) (e : Entity) (f : Frame) (st : State) :
    (populate cfg g node e f).Processes cfg [(.inside node e f, st)] st := by
  rw [populate_eq]
  refine processes_inside rfl fun inner st₁ _ => ?_
  refine (processes_applyAttributes e node inner {} st₁).bind
    (fun r => ((carries_approachedBy hg.approached).attributes e node inner {} fun _ _ _ =>
      trivial).outcome)
    fun grid st₂ _ => processes_bind (keeps_finishGrid e grid) fun _ st₃ _ => ?_
  cases hchildren : node.get? "children" with
  | none => exact processes_pure _
  | some v =>
    match v, hchildren with
    | .arr nodes, hchildren =>
      have := Fields.sizeOf_lt_of_get?_arr hchildren
      dsimp only [processUnder]
      split_ifs
      · exact processes_processChildren nodes 0 _ st₃
      · exact Keeps.processes (formats_warn _ _).keeps
    | .null, _ | .bool _, _ | .num _, _ | .str _, _ | .obj _, _ => exact processes_throw _
termination_by (sizeOf node, 1)

lemma processes_processChildren (children : List Value) (i : Nat) (f : Frame)
    (st : State) :
    (processChildren cfg g children i f).Processes cfg [(.children children i f, st)] st := by
  unfold processChildren
  match children with
  | [] => exact (processes_pure _).single rfl
  | v :: rest =>
    refine Processes.single ?_ rfl
    exact ((processes_processNode v _ st).recover ()).bind
      (fun r =>
        (Run.ApproachedBy.recover ()
          ((carries_approachedBy hg.approached).node v _ trivial)).outcome)
      fun _ st' _ => processes_processChildren rest (i + 1) f st'
termination_by (sizeOf children, 0)

lemma processes_applyAttributes (e : Entity) (pairs : List (Bytes × Value)) (f : Frame)
    (grid : Grid) (st : State) :
    (applyAttributes cfg g e pairs f grid).Processes cfg [(.attributes e pairs f grid, st)] st := by
  match pairs with
  | [] =>
    unfold applyAttributes
    exact (processes_pure _).single rfl
  | (key, v) :: rest =>
    rw [applyAttributes_cons]
    refine Processes.single ?_ rfl
    exact (processes_attribute (processes_applyWith e v f _ st) grid).bind
      (fun r =>
        ((carries_approachedBy hg.approached).attributes e [(key, v)] f grid fun _ _ _ =>
          trivial).outcome)
      fun grid' st' _ => processes_applyAttributes e rest f grid' st'
termination_by (sizeOf pairs, 0)

lemma processes_applyWith (e : Entity) (v : Value) (f : Frame) (at_ : Pointer) (st : State) :
    (applyWith cfg g e v f at_).Processes cfg (withCalls e v f at_ st) st := by
  unfold applyWith
  match v with
  | .obj block => exact processes_withBlock e block f at_ st
  | .arr blocks => exact processes_withBlocks e blocks 0 f at_ st
  | .null | .bool _ | .num _ | .str _ => exact processes_throw _
termination_by (sizeOf v, 0)

lemma processes_withBlocks (e : Entity) (blocks : List Value) (i : Nat) (f : Frame) (at_ : Pointer)
    (st : State) :
    (withBlocks cfg g e blocks i f at_).Processes cfg [(.blocks e blocks i f at_, st)] st := by
  unfold withBlocks
  match blocks with
  | [] => exact (processes_pure _).single rfl
  | .obj block :: rest =>
    refine Processes.single ?_ rfl
    exact ((processes_withBlock e block f _ st).recover ()).bind
      (fun r =>
        (Run.ApproachedBy.recover ()
          ((carries_approachedBy hg.approached).block e block f _ trivial)).outcome)
      fun _ st' _ => processes_withBlocks e rest (i + 1) f at_ st'
  | .null :: _ | .bool _ :: _ | .num _ :: _ | .str _ :: _ | .arr _ :: _ =>
      exact (processes_throw _).single rfl
termination_by (sizeOf blocks, 0)

lemma processes_withBlock (e : Entity) (block : Fields) (f : Frame) (at_ : Pointer)
    (st : State) :
    (withBlock cfg g e block f at_).Processes cfg [(.block e block f at_, st)] st := by
  rw [withBlock_eq]
  refine Processes.single ?_ rfl
  refine processes_bind (keeps_blockTarget cfg e f at_ block) fun target st' _ => ?_
  cases hinner : block.get? "do" with
  | none => exact processes_pure _
  | some v =>
    match v, hinner with
    | .obj inner, hinner =>
      have := Fields.sizeOf_lt_of_get?_obj hinner
      exact processes_populate inner target _ st'
    | .null, _ | .bool _, _ | .num _, _ | .str _, _ | .arr _, _ => exact processes_throw _
termination_by (sizeOf block, 0)

end

end

variable {cfg : Settings}

/-- The instances of a run are traced by induction over those inside them. -/
lemma tracedInstances (cfg : Settings) : TracedInstances cfg (instantiate cfg) where
  approached _ _ := .const _
  processes node f st r st' hr := by
    refine (instantiate_induction cfg
      (motive := fun node f st r => (instantiate cfg node f).outcome st = some r ∧
      ∃ regs, Finished cfg [(.node (.obj node) f, st)] regs ∧ r.2.registry =
        st.registry.replay regs) ?_ hr).2
    intro g hg node f st r hr
    have htraced : TracedInstances cfg g :=
      ⟨fun node f st r hr => ⟨0, fun _ _ => (hg node f st r hr).1⟩,
        fun node f st r st' hr => (hg node f st (r, st') hr).2⟩
    refine ⟨?_, processes_processFields htraced node f st r.1 r.2 hr⟩
    rw [outcome_instantiate]
    exact outcome_processFields_mono (fun node f st r hr => (hg node f st r hr).1) hr

/-! ## The registry at every point -/

/-- Each part begins with the registry that the parts before it have left, and is the last unless it
comes to an end. -/
inductive Orderly (cfg : Settings) : Registry → List (Call × State) → Prop
  | nil {r : Registry} : Orderly cfg r []
  | last {r : Registry} {a : Call × State} (ha : a.2.registry = r) : Orderly cfg r [a]
  | cons {r : Registry} {a : Call × State} {rest : List (Call × State)} {regs : List Registration}
      (ha : a.2.registry = r) (hregs : Finished cfg [a] regs)
        (hrest : Orderly cfg (r.replay regs) rest) :
      Orderly cfg r (a :: rest)

variable {α : Type} {x : Run α} {r : Registry} {b : Call × State}
  {next : α → State → List (Call × State)}

lemma orderly_following (hx : x.Keeps) {st : State}
    (hnext : ∀ a st', x.outcome st = some (.ok a, st') → Orderly cfg st'.registry (next a st')) :
    Orderly cfg st.registry (following x st next) := by
  obtain ⟨r, st', hr, hkept⟩ := hx st
  cases r with
  | ok a =>
    rw [following_ok hr, ← hkept.registry]
    exact hnext a st' hr
  | error fault =>
    rw [following_error hr]
    exact .nil

lemma Orderly.append {parts rest : List (Call × State)} {regs : List Registration}
    (h : Orderly cfg r parts) (hregs : Finished cfg parts regs)
    (hrest : Orderly cfg (r.replay regs) rest) :
    Orderly cfg r (parts ++ rest) := by
  induction h generalizing regs with
  | nil =>
    cases hregs
    exact hrest
  | last ha => exact .cons ha hregs hrest
  | cons ha hfirst _ ih =>
    obtain ⟨first, later, hfirst', hlater, rfl⟩ := hregs.of_cons
    obtain rfl := hfirst.unique hfirst'
    rw [Registry.replay_append] at hrest
    exact .cons ha hfirst (ih hlater hrest)

lemma Run.Processes.orderly {parts : List (Call × State)} {st : State}
    (hx : x.Processes cfg parts st) (hparts : Orderly cfg st.registry parts)
    (hnext : ∀ a st', x.outcome st = some (.ok a, st') → Orderly cfg st'.registry (next a st')) :
    Orderly cfg st.registry (parts ++ following x st next) := by
  match hr : x.outcome st with
  | none =>
    rw [following, hr]
    simpa using hparts
  | some (.error fault, st') =>
    rw [following_error hr, List.append_nil]
    exact hparts
  | some (.ok a, st') =>
    obtain ⟨regs, hregs, hregistry⟩ := hx _ _ hr
    have hrest := hnext a st' hr
    rw [following_ok hr]
    exact hparts.append hregs (hregistry ▸ hrest)

lemma Run.Decided.orderly_following (hx : x.Decided) {st : State}
    (hnext : ∀ a, Orderly cfg st.registry (next a st)) :
    Orderly cfg st.registry (following x st next) := by
  obtain ⟨a, rfl⟩ | ⟨fault, rfl⟩ := hx
  · exact hnext a
  · exact .nil

lemma orderly_node (cfg : Settings) (node : Fields) (f : Frame) (st : State) :
    Orderly cfg st.registry (calls cfg (.node (.obj node) f) st) := by
  refine (decided_textField node "type" f.at_).orderly_following fun type => ?_
  cases NodeKind.ofType type with
  | component => exact .nil
  | use =>
    refine (decided_componentName node _ f.at_).orderly_following fun name =>
      (decided_objectField node _ f.at_).orderly_following fun context => ?_
    cases st.components.lookup name with
    | none => exact .nil
    | some root => exact .last rfl
  | context =>
    refine (decided_objectField node "values" f.at_).orderly_following fun values => ?_
    split
    · exact .last rfl
    · exact .nil
  | style => exact orderly_following keeps_createStyle fun _ _ _ => .last rfl
  | widget type => exact orderly_following (keeps_createWidget cfg f type) fun _ _ _ => .last rfl

lemma orderly_inside (cfg : Settings) (node : Fields) (e : Entity) (f : Frame) (st : State) :
    Orderly cfg (st.registry.replay (Call.inside node e f).registrations)
    (calls cfg (.inside node e f) st) := by
  obtain ⟨r, st₁, hr, -⟩ := settles_registerNode e f node st
  rw [← outcome_registerNode hr]
  cases r with
  | error fault =>
    have hcalls : calls cfg (.inside node e f) st = [] := following_error hr
    rw [hcalls]
    exact .nil
  | ok inner =>
    have hcalls : calls cfg (.inside node e f) st = _ := following_ok hr
    rw [hcalls]
    refine (processes_applyAttributes (tracedInstances cfg) e node inner {} st₁).orderly (.last rfl)
      fun grid st₂ _ => orderly_following (keeps_finishGrid e grid) fun _ st₃ _ => ?_
    split
    · split
      · exact .last rfl
      · exact .nil
    · exact .nil

lemma orderly_withCalls (e : Entity) (v : Value) (f : Frame) (at_ : Pointer) (st : State) :
    Orderly cfg st.registry (withCalls e v f at_ st) := by
  unfold withCalls
  split
  · exact .last rfl
  · exact .last rfl
  · exact .nil

/-- What a part calls for begins with the registry that its own registrations and everything before
have left. -/
lemma orderly_calls (cfg : Settings) (call : Call) (st : State) :
    Orderly cfg (st.registry.replay call.registrations) (calls cfg call st) := by
  have htraced := tracedInstances cfg
  match call with
  | .node (.obj node) f => exact orderly_node cfg node f st
  | .node .null f | .node (.bool _) f | .node (.num _) f | .node (.str _) f | .node (.arr _) f =>
      exact .nil
  | .children [] i f => exact .nil
  | .children (v :: rest) i f =>
    exact ((processes_processNode htraced v _ st).recover ()).orderly (.last rfl) fun _ _ _ =>
      .last rfl
  | .inside node e f => exact orderly_inside cfg node e f st
  | .attributes e [] f grid => exact .nil
  | .attributes e ((key, v) :: rest) f grid =>
    refine (processes_attribute (processes_applyWith htraced e v f _ st) grid).orderly ?_
      fun _ _ _ => .last rfl
    split
    · exact orderly_withCalls e v f _ st
    · exact .nil
  | .blocks e [] i f at_ => exact .nil
  | .blocks e (.obj block :: rest) i f at_ =>
    exact ((processes_withBlock htraced e block f _ st).recover ()).orderly (.last rfl) fun _ _ _ =>
      .last rfl
  | .blocks e (.null :: _) i f at_ | .blocks e (.bool _ :: _) i f at_ | .blocks e
      (.num _ :: _) i f at_
  | .blocks e (.str _ :: _) i f at_ | .blocks e (.arr _ :: _) i f at_ => exact .nil
  | .block e block f at_ =>
    refine orderly_following (keeps_blockTarget cfg e f at_ block) fun target st' _ => ?_
    split
    · exact .last rfl
    · exact .nil

/-- Parts in front of another come to an end, and leave the registry with which it begins. -/
lemma Orderly.split {earlier later : List (Call × State)}
    (h : Orderly cfg r (earlier ++ b :: later)) :
    ∃ regs, Finished cfg earlier regs ∧ b.2.registry = r.replay regs := by
  induction earlier generalizing r with
  | nil =>
    cases h with
    | last hb => exact ⟨[], .nil, hb⟩
    | cons hb => exact ⟨[], .nil, hb⟩
  | cons a earlier ih =>
    generalize hrest : earlier ++ b :: later = rest at h
    rw [List.cons_append, hrest] at h
    cases h with
    | last => simp at hrest
    | cons ha hregs h =>
      subst hrest
      obtain ⟨regs', hregs', hb⟩ := ih h
      exact ⟨_, hregs.append hregs', by rw [hb, Registry.replay_append]⟩

lemma Made.registry {a b : Call × State} {regs : List Registration} (h : Made cfg a regs b) :
    b.2.registry = a.2.registry.replay regs := by
  induction h with
  | here => rfl
  | @within call st b c earlier later regs regs' hcalls hearlier _ ih =>
    have horderly := orderly_calls cfg call st
    rw [hcalls] at horderly
    obtain ⟨found, hfound, hb⟩ := horderly.split
    obtain rfl := hfound.unique hearlier
    rw [ih, hb, Registry.replay_append, Registry.replay_append]

/-- One call further, more registrations may have been made. -/
lemma Made.calls {a c : Call × State} {regs : List Registration} (h : Made cfg a regs b)
    (hcall : Calls cfg b c) : ∃ regs, Made cfg a regs c := by
  induction h with
  | here b =>
    obtain ⟨earlier, later, hcalls⟩ := List.append_of_mem (mem_calls hcall)
    have horderly := orderly_calls cfg b.1 b.2
    rw [hcalls] at horderly
    obtain ⟨regs, hregs, -⟩ := horderly.split
    exact ⟨_, .within hcalls hregs (.here c)⟩
  | within hcalls hearlier _ ih =>
    obtain ⟨regs, hregs⟩ := ih hcall
    exact ⟨_, .within hcalls hearlier hregs⟩

/-- What a run leads to, it comes to with some registrations made. -/
lemma LeadsTo.made {doc : Value} {st st' : State} {call : Call} (h : LeadsTo cfg doc st call st') :
    ∃ regs, Made cfg (.ofDocument cfg doc, st) regs (call, st') :=
  h.invariant (P := fun b => ∃ regs, Made cfg (.ofDocument cfg doc, st) regs b) ⟨[], .here _⟩
    fun _ _ ⟨_, hmade⟩ hcall => hmade.calls hcall

lemma processes_run (cfg : Settings) (doc : Value) (st : State) :
    (run cfg doc).Processes cfg [(.ofDocument cfg doc, st)] st := by
  have htraced := tracedInstances cfg
  cases doc with
  | obj node => exact (processes_processFields htraced node _ st).recover ()
  | arr nodes => exact processes_processChildren htraced nodes 0 _ st
  | _ => exact (processes_throw _).single rfl

end Transpile

end UiCodegen
