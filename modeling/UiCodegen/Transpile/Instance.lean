import UiCodegen.Transpile.Node

/-!
# Instances of components

An instance of a component is its node, processed where the component is used; the uses in that node
are instances again.  A component may use itself, directly or through others, and then the instances
have no end.  `instantiate` is the least solution of that recursion: it comes to whatever finitely
many instances inside each other come to, and to nothing else.

A least solution needs that processing a node asks for instances and does nothing else with the
function that makes them.  This is stated by approximation: if functions `gs 0`, `gs 1`, ... agree
with `g` from some number on wherever `g` ends, then so does what is processed with them.
-/

namespace UiCodegen.Transpile

namespace Run

variable {α β : Type}

/-- Wherever `x` ends, the steps `xs` end in the same way from some number on. -/
def ApproachedBy (x : Run α) (xs : Nat → Run α) : Prop :=
  ∀ st r, x.outcome st = some r → ∃ n, ∀ m, n ≤ m → (xs m).outcome st = some r

theorem ApproachedBy.const (x : Run α) : x.ApproachedBy fun _ => x :=
  fun _ _ hx => ⟨0, fun _ _ => hx⟩

theorem ApproachedBy.bind {x : Run α} {xs : Nat → Run α} {k : α → Run β} {ks : Nat → α → Run β}
    (hx : x.ApproachedBy xs)
    (hk : ∀ a, (∃ st st', x.outcome st = some (.ok a, st')) → (k a).ApproachedBy fun m => ks m a) :
    (x >>= k).ApproachedBy fun m => xs m >>= ks m := by
  intro st r hr
  rw [outcome_bind] at hr
  match hs : x.outcome st with
  | none => simp [hs] at hr
  | some (.error e, st') =>
    obtain ⟨n, hn⟩ := hx st _ hs
    refine ⟨n, fun m hm => ?_⟩
    simpa only [outcome_bind, hn m hm, hs] using hr
  | some (.ok a, st') =>
    obtain ⟨n, hn⟩ := hx st _ hs
    obtain ⟨n', hn'⟩ := hk a ⟨st, st', hs⟩ st' r (by simpa only [hs] using hr)
    refine ⟨max n n', fun m hm => ?_⟩
    simp only [outcome_bind, hn m (by omega), hn' m (by omega)]

theorem ApproachedBy.recover {x : Run α} {xs : Nat → Run α} (otherwise : α)
    (hx : x.ApproachedBy xs) :
    (recover otherwise x).ApproachedBy fun m => Transpile.recover otherwise (xs m) := by
  intro st r hr
  rw [outcome_recover] at hr
  cases hs : x.outcome st with
  | none => simp [hs] at hr
  | some s =>
    obtain ⟨n, hn⟩ := hx st s hs
    refine ⟨n, fun m hm => ?_⟩
    simpa only [outcome_recover, hn m hm, hs] using hr

end Run

/-! ## What processing carries over -/

/-- Steps of processing in which no instance is asked for. -/
inductive NodeStep (cfg : Settings) : {α : Type} → Run α → Prop
  | pure {α : Type} (a : α) : NodeStep cfg (pure a : Run α)
  | throw {α : Type} (fault : Fault) : NodeStep cfg (throw fault : Run α)
  | warn (p : Problem) (at_ : Pointer) : NodeStep cfg (warn p at_)
  | textField (node : Fields) (key : Bytes) (at_ : Pointer) : NodeStep cfg (textField node key at_)
  | objectField (node : Fields) (key : Bytes) (at_ : Pointer) : NodeStep cfg
      (objectField node key at_)
  | style : NodeStep cfg createStyle
  | widget (type : Bytes) (f : Frame) : NodeStep cfg (createWidget cfg type f)
  | names (node : Fields) (e : Entity) (f : Frame) : NodeStep cfg (registerNode node e f)
  | setter (e : Entity) (key : Bytes) (v : Value) (f : Frame) (at_ : Pointer) :
      NodeStep cfg (applySetter cfg e key v f at_)
  | template (e : Entity) (grid : Grid) (key : Bytes) (v : Value) (f : Frame) (at_ : Pointer) :
      NodeStep cfg (gridTemplate cfg e grid key v f at_)
  | grid (e : Entity) (grid : Grid) : NodeStep cfg (finishGrid e grid)
  | target (e : Entity) (block : Fields) (f : Frame) (at_ : Pointer) :
      NodeStep cfg (blockTarget cfg e block f at_)

/-- A property of steps, and of others that stand for them, which processing carries over from the
instances that `g` makes, and `gs 0`, `gs 1`, ... in its place, to whole documents.  The documents
are those whose parts are `Good`. -/
structure Carries (cfg : Settings) (g : Fields → Frame → Run Unit)
    (gs : Nat → Fields → Frame → Run Unit) (Good : Value → Prop)
    (P : {α : Type} → Run α → (Nat → Run α) → Prop) : Prop where
  field {node : Fields} {key : Bytes} {v : Value} : Good (.obj node) → (key, v) ∈ node → Good v
  item {items : List Value} {v : Value} : Good (.arr items) → v ∈ items → Good v
  step {α : Type} {x : Run α} : NodeStep cfg x → P x fun _ => x
  bind {α β : Type} {x : Run α} {xs : Nat → Run α} {k : α → Run β} {ks : Nat → α → Run β} : P x xs →
    (∀ a, (∃ st st', x.outcome st = some (.ok a, st')) → P (k a) fun m => ks m a) →
    P (x >>= k) fun m => xs m >>= ks m
  recover {α : Type} {x : Run α} {xs : Nat → Run α} (otherwise : α) :
    P x xs → P (recover otherwise x) fun m => recover otherwise (xs m)
  component {node : Fields} (f : Frame) {type : Option Bytes} : Good (.obj node) →
    (∃ st st', (textField node "type" f.at_).outcome st = some (.ok type, st')) →
    NodeKind.ofType type = .component → P (defineComponent node f.at_) fun _ =>
      defineComponent node f.at_
  use {node : Fields} (f : Frame) {type : Option Bytes} : Good (.obj node) →
    (∃ st st', (textField node "type" f.at_).outcome st = some (.ok type, st')) →
    NodeKind.ofType type = .use → P (useComponent g node f) fun m => useComponent (gs m) node f

section

variable {cfg : Settings} {g : Fields → Frame → Run Unit} {gs : Nat → Fields → Frame → Run Unit}
  {Good : Value → Prop} {P : {α : Type} → Run α → (Nat → Run α) → Prop}

theorem Carries.get (h : Carries cfg g gs Good P) {node : Fields} (hv : Good (.obj node))
    {key : Bytes} {v : Value} (hget : node.get? key = some v) : Good v := by
  obtain ⟨_, hmem⟩ := Fields.mem_of_get? hget
  exact h.field hv hmem

mutual

/-- The induction is the one that processing itself ends by. -/
theorem Carries.node (h : Carries cfg g gs Good P) (v : Value) (f : Frame) (hv : Good v) :
    P (processNode cfg g v f) fun m => processNode cfg (gs m) v f := by
  unfold processNode
  cases v with
  | obj node => exact h.fields node f hv
  | _ => exact h.step (.throw _)
termination_by (sizeOf v, 0)

theorem Carries.fields (h : Carries cfg g gs Good P) (node : Fields) (f : Frame)
    (hv : Good (.obj node)) :
    P (processFields cfg g node f) fun m => processFields cfg (gs m) node f := by
  unfold processFields
  refine h.bind (h.step (.textField node _ f.at_)) fun type htype => ?_
  cases hkind : NodeKind.ofType type with
  | component => exact h.component f hv htype hkind
  | use => exact h.use f hv htype hkind
  | context =>
    refine h.bind (h.step (.objectField node _ f.at_)) fun values _ => ?_
    cases values with
    | none => exact h.step (.throw _)
    | some values =>
      dsimp only
      split
      · exact h.step (.throw _)
      · rename_i body hbody
        have := Fields.sizeOf_lt_of_get?_obj hbody
        exact h.fields body _ (h.get hv hbody)
      · exact h.step (.throw _)
  | style => exact h.bind (h.step .style) fun e _ => h.inside node e f hv
  | widget type => exact h.bind (h.step (.widget type f)) fun e _ => h.inside node e f hv
termination_by (sizeOf node, 2)

theorem Carries.inside (h : Carries cfg g gs Good P) (node : Fields) (e : Entity) (f : Frame)
    (hv : Good (.obj node)) :
    P (populate cfg g node e f) fun m => populate cfg (gs m) node e f := by
  unfold populate
  refine h.bind (h.step (.names node e f)) fun inner _ =>
    h.bind (h.attributes e node inner {} fun _ _ => h.field hv) fun grid _ =>
      h.bind (h.step (.grid e grid)) fun _ _ => ?_
  split
  · exact h.step (.pure _)
  · rename_i children hchildren
    have := Fields.sizeOf_lt_of_get?_arr hchildren
    split
    · exact h.children children 0 _ fun _ => h.item (h.get hv hchildren)
    · exact h.step (.warn _ _)
  · exact h.step (.throw _)
termination_by (sizeOf node, 1)

theorem Carries.children (h : Carries cfg g gs Good P) (nodes : List Value) (i : Nat) (f : Frame)
    (hv : ∀ v ∈ nodes, Good v) :
    P (processChildren cfg g nodes i f) fun m => processChildren cfg (gs m) nodes i f := by
  unfold processChildren
  match nodes with
  | [] => exact h.step (.pure _)
  | v :: rest =>
    rw [List.forall_mem_cons] at hv
    exact h.bind (h.recover () (h.node v _ hv.1)) fun _ _ => h.children rest (i + 1) f hv.2
termination_by (sizeOf nodes, 0)

theorem Carries.attributes (h : Carries cfg g gs Good P) (e : Entity) (pairs : List (Bytes × Value))
    (f : Frame) (grid : Grid) (hv : ∀ key v, (key, v) ∈ pairs → Good v) :
    P (applyAttributes cfg g e pairs f grid) fun m => applyAttributes cfg
    (gs m) e pairs f grid := by
  unfold applyAttributes
  match pairs with
  | [] => exact h.step (.pure _)
  | (key, v) :: rest =>
    refine h.bind (h.recover grid ?_) fun grid _ =>
      h.attributes e rest f grid fun _ _ hmem => hv _ _ (.tail _ hmem)
    split
    · exact h.bind (h.blocks e v f _ (hv _ _ (.head _))) fun _ _ => h.step (.pure _)
    split
    · exact h.step (.pure _)
    split
    · exact h.step (.template e grid key v f _)
    · exact h.bind (h.step (.setter e key v f _)) fun _ _ => h.step (.pure _)
termination_by (sizeOf pairs, 0)

theorem Carries.blocks (h : Carries cfg g gs Good P) (e : Entity) (v : Value) (f : Frame)
    (at_ : Pointer) (hv : Good v) :
    P (applyWith cfg g e v f at_) fun m => applyWith cfg (gs m) e v f at_ := by
  unfold applyWith
  cases v with
  | obj block => exact h.block e block f at_ hv
  | arr blocks => exact h.blockArray e blocks 0 f at_ fun _ => h.item hv
  | _ => exact h.step (.throw _)
termination_by (sizeOf v, 0)

theorem Carries.blockArray (h : Carries cfg g gs Good P) (e : Entity) (blocks : List Value)
    (i : Nat) (f : Frame) (at_ : Pointer) (hv : ∀ v ∈ blocks, Good v) :
    P (withBlocks cfg g e blocks i f at_) fun m => withBlocks cfg (gs m) e blocks i f at_ := by
  unfold withBlocks
  match blocks with
  | [] => exact h.step (.pure _)
  | .obj block :: rest =>
    rw [List.forall_mem_cons] at hv
    exact h.bind (h.recover () (h.block e block f _ hv.1)) fun _ _ => h.blockArray e rest
      (i + 1) f at_ hv.2
  | .null :: _ | .bool _ :: _ | .num _ :: _ | .str _ :: _ | .arr _ :: _ => exact h.step (.throw _)
termination_by (sizeOf blocks, 0)

theorem Carries.block (h : Carries cfg g gs Good P) (e : Entity) (block : Fields) (f : Frame)
    (at_ : Pointer) (hv : Good (.obj block)) :
    P (withBlock cfg g e block f at_) fun m => withBlock cfg (gs m) e block f at_ := by
  unfold withBlock
  refine h.bind (h.step (.target e block f at_)) fun target _ => ?_
  split
  · exact h.step (.pure _)
  · rename_i inner hinner
    have := Fields.sizeOf_lt_of_get?_obj hinner
    exact h.inside inner target _ (h.get hv hinner)
  · exact h.step (.throw _)
termination_by (sizeOf block, 0)

end

end

section

variable {cfg : Settings} {g : Fields → Frame → Run Unit} {gs : Nat → Fields → Frame → Run Unit}

theorem approachedBy_useComponent (h : ∀ node f, (g node f).ApproachedBy fun m => gs m node f)
    (node : Fields) (f : Frame) :
    (useComponent g node f).ApproachedBy fun m => useComponent (gs m) node f := by
  unfold useComponent
  refine .bind (.const _) fun name _ => .bind (.const _) fun context _ => .bind (.const _)
    fun st _ => ?_
  cases st.components.lookup name with
  | none => exact .const _
  | some root => exact .bind (.const _) fun _ _ => h _ _

theorem carries_approachedBy (h : ∀ node f, (g node f).ApproachedBy fun m => gs m node f) :
    Carries cfg g gs (fun _ => True) Run.ApproachedBy where
  field _ _ := trivial
  item _ _ := trivial
  step _ := .const _
  bind hx hk := hx.bind hk
  recover otherwise hx := hx.recover otherwise
  component _ _ _ _ _ := .const _
  use f _ _ _ _ := approachedBy_useComponent h _ f

/-- What is processed with a function that ends more often ends in the same way. -/
theorem outcome_processFields_mono {g' : Fields → Frame → Run Unit}
    (h : ∀ node f st r, (g node f).outcome st = some r → (g' node f).outcome st = some r)
    {node : Fields} {f : Frame} {st : State} {r : Except Fault Unit × State}
    (hr : (processFields cfg g node f).outcome st = some r) :
    (processFields cfg g' node f).outcome st = some r := by
  have hg : ∀ node f, (g node f).ApproachedBy fun _ => g' node f :=
    fun node f st r hr => ⟨0, fun _ _ => h node f st r hr⟩
  obtain ⟨n, hn⟩ := (carries_approachedBy hg).fields node f trivial st r hr
  exact hn n (Nat.le_refl n)

end

/-! ## The least solution -/

def ofOutcome (outcomeOf : Fields → Frame → State → Option (Except Fault Unit × State))
    (node : Fields) (f : Frame) : Run Unit :=
  ExceptT.mk (outcomeOf node f)

section

variable (cfg : Settings)

def instanceOutcome (node : Fields) (f : Frame) (st : State) : Option (Except Fault Unit × State) :=
  (processFields cfg (ofOutcome (by apply instanceOutcome)) node f).outcome st
partial_fixpoint monotonicity by
  intro g g' hle node f st
  have hstep : ∀ node f st r, g node f st = some r → g' node f st = some r := by
    intro node f st r hr
    have hle := hle node f st
    rw [hr] at hle
    generalize g' node f st = found at hle ⊢
    cases hle
    rfl
  dsimp only
  generalize hr : (processFields cfg (ofOutcome g) node f).outcome st = r
  cases r with
  | none => exact .bot
  | some r =>
    have hr' : (processFields cfg (ofOutcome g') node f).outcome st = some r :=
      outcome_processFields_mono hstep hr
    rw [hr']
    exact .refl

def instantiate : Fields → Frame → Run Unit := ofOutcome (instanceOutcome cfg)

/-- An instance is a node that is processed with instances inside it. -/
theorem outcome_instantiate (node : Fields) (f : Frame) (st : State) :
    (instantiate cfg node f).outcome st = (processFields cfg (instantiate cfg) node f).outcome st :=
  instanceOutcome.eq_1 cfg node f st

/-- What processing a node carries over from the instances inside it holds of every instance that
ends. -/
theorem instantiate_induction
    {motive : Fields → Frame → State → Except Fault Unit × State → Prop}
    (step : ∀ g : Fields → Frame → Run Unit,
      (∀ node f st r, (g node f).outcome st = some r → motive node f st r) →
      ∀ node f st r, (processFields cfg g node f).outcome st = some r → motive node f st r)
    {node : Fields} {f : Frame} {st : State} {r : Except Fault Unit × State}
    (hr : (instantiate cfg node f).outcome st = some r) : motive node f st r :=
  instanceOutcome.partial_correctness cfg motive (fun g => step (ofOutcome g)) node f st r hr

end

end UiCodegen.Transpile
