import UiCodegen.Proofs.Steps

/-!
# What the traversal of a document comes to

A run processes one part of a document after the other, and each part in a state of its own.  `Calls`
says what the processing of one part calls for, and in which state: what comes later begins in the
state that everything before it has left.  A node is reached if such calls lead to it from the
document.  A node inside a component is reached in every instance of the component.
-/

namespace UiCodegen.Transpile

/-! ## Parts of nodes that may be missing

Processing looks for parts of a node on its way down.  The parts are taken out here, so that two
nodes can be compared by what they have under a key. -/

section

variable (cfg : Settings) (g : Fields → Frame → Run Unit)

def processBody (body : Option Value) (values : Fields) (f : Frame) : Run Unit :=
  match body with
  | none => violate .missingBody f.at_
  | some (.obj body) =>
    processFields cfg g body
      { f with scope := f.scope.extend (some values), at_ := f.at_.key "for" }
  | some v => violate (.notObject "for" v.typeName) (f.at_.key "for")

/-- Processes the children of an entity; `inner` is the frame inside the node. -/
def processUnder (children : Option Value) (e : Entity) (f inner : Frame) : Run Unit :=
  match children with
  | none => pure ()
  | some (.arr children) =>
    if e.isPointer then
      processChildren cfg g children 0 { inner with parent := e, at_ := f.at_.key "children" }
    else warn (.noChildren e.nodeType) (f.at_.key "children")
  | some v => violate (.childrenType v.typeName) (f.at_.key "children")

/-- Processes the inner part of a `with` block. -/
def processInner (inner : Option Value) (target : Entity) (f : Frame) (at_ : Pointer) : Run Unit :=
  match inner with
  | none => pure ()
  | some (.obj inner) => populate cfg g inner target { f with at_ := at_.key "do" }
  | some v => violate (.notObject "do" v.typeName) (at_.key "do")

lemma processFields_eq (node : Fields) (f : Frame) : processFields cfg g node f = (do
      match NodeKind.ofType (← textField node "type" f.at_) with
      | .component => defineComponent node f.at_
      | .use => useComponent g node f
      | .context =>
        match ← objectField node "values" f.at_ with
        | none => violate .missingValues f.at_
        | some values => processBody cfg g (node.get? "for") values f
      | .style => populate cfg g node (← createStyle) f
      | .widget type => populate cfg g node (← createWidget cfg type f) f) := by
  rw [processFields]
  refine bind_congr fun type => ?_
  cases NodeKind.ofType type with
  | context =>
    refine bind_congr fun values => ?_
    cases values with
    | none => rfl
    | some values =>
      unfold processBody
      dsimp only
      split <;> rename_i hbody <;> simp only [hbody]
  | _ => rfl

lemma populate_eq (node : Fields) (e : Entity) (f : Frame) : populate cfg g node e f = (do
      let inner ← registerNode node e f
      let grid ← applyAttributes cfg g e node inner {}
      finishGrid e grid
      processUnder cfg g (node.get? "children") e f inner) := by
  rw [populate]
  refine bind_congr fun inner => bind_congr fun grid => bind_congr fun _ => ?_
  unfold processUnder
  split <;> rename_i hchildren <;> simp only [hchildren]

lemma withBlock_eq (e : Entity) (block : Fields) (f : Frame) (at_ : Pointer) :
    withBlock cfg g e block f at_ = (do
      let target ← blockTarget cfg e block f at_
      processInner cfg g (block.get? "do") target f at_) := by
  rw [withBlock]
  refine bind_congr fun target => ?_
  unfold processInner
  split <;> rename_i hinner <;> simp only [hinner]

lemma applyAttributes_cons (e : Entity) (pair : Bytes × Value) (rest : Fields) (f : Frame)
    (grid : Grid) : applyAttributes cfg g e (pair :: rest) f grid = (do
      let grid ← applyAttributes cfg g e [pair] f grid
      applyAttributes cfg g e rest f grid) := by
  obtain ⟨key, v⟩ := pair
  rw [applyAttributes, applyAttributes, bind_assoc]
  refine bind_congr fun grid => ?_
  rw [applyAttributes, pure_bind]

lemma applyAttributes_single (e : Entity) (key : Bytes) (v : Value) (f : Frame) (grid : Grid) :
    applyAttributes cfg g e [(key, v)] f grid = recover grid (
      if key == "with" then do
        applyWith cfg g e v f (f.at_.key key)
        pure grid
      else if metaKeys.contains key then pure grid
      else if e.nodeType == "grid" && (key == "cols" || key == "rows") then
        gridTemplate cfg e grid key v f (f.at_.key key)
      else do
        applySetter cfg e key v f (f.at_.key key)
        pure grid) := by
  rw [applyAttributes]
  simp only [applyAttributes, bind_pure]

end

lemma Run.ApproachedBy.outcome {α : Type} {x y : Run α} (h : x.ApproachedBy fun _ => y) {st : State}
    {r : Except Fault α × State} (hr : x.outcome st = some r) : y.outcome st = some r := by
  obtain ⟨n, hn⟩ := h st r hr
  exact hn n le_rfl

/-! ## The traversal -/

/-- A part of a document that is being processed, and what is known about its place. -/
inductive Call where
  | node (v : Value) (f : Frame)
  /-- The children from number `i` on. -/
  | children (nodes : List Value) (i : Nat) (f : Frame)
  /-- What is inside a node or the inner part of a `with` block. -/
  | inside (node : Fields) (e : Entity) (f : Frame)
  | attributes (e : Entity) (pairs : Fields) (f : Frame) (grid : Grid)
  /-- The `with` blocks from number `i` on. -/
  | blocks (e : Entity) (blocks : List Value) (i : Nat) (f : Frame) (at_ : Pointer)
  | block (e : Entity) (block : Fields) (f : Frame) (at_ : Pointer)

/-- What a use writes to the log about the keys that have no effect, the latest first. -/
def ignoredNotes (node : Fields) (at_ : Pointer) : List Log.Record :=
  let ignored : List Bytes :=
    node.keys.filter fun key => key != "type" && key != "id" && key != "context"
  let records := ignored.map fun key =>
    { level := .debug, message := "ignoring key on use-view",
      attributes := [("key", key), ("pointer", at_.display)] : Log.Record }
  records.reverse

/-- What processing a part in a state calls for, with the states in which these calls begin. -/
inductive Calls (cfg : Settings) : Call × State → Call × State → Prop
  | body {node values body : Fields} {f : Frame} {st : State} {type : Option Bytes}
      (htype : textField node "type" f.at_ = pure type) (hkind : NodeKind.ofType type = .context)
      (hvalues : objectField node "values" f.at_ = pure (some values))
        (hbody : node.get? "for" = some (.obj body)) :
      Calls cfg (.node (.obj node) f, st)
        (.node (.obj body) { f with scope := f.scope.extend (some values), at_ := f.at_.key "for" },
          st)
  | use {node root : Fields} {f : Frame} {st : State} {type : Option Bytes} {name : Bytes}
      {context : Option Fields}
      (htype : textField node "type" f.at_ = pure type) (hkind : NodeKind.ofType type = .use)
      (hname : componentName node "use-view" f.at_ = pure name)
      (hcontext : objectField node "context" f.at_ = pure context)
      (hroot : st.components.lookup name = some root) :
      Calls cfg (.node (.obj node) f, st)
        (.node (.obj root) { f with scope := f.scope.extend context },
          { st with log := ignoredNotes node f.at_ ++ st.log })
  | style {node : Fields} {f : Frame} {st st' : State} {type : Option Bytes} {e : Entity}
      (htype : textField node "type" f.at_ = pure type) (hkind : NodeKind.ofType type = .style)
      (hcreate : createStyle.outcome st = some (.ok e, st')) :
      Calls cfg (.node (.obj node) f, st) (.inside node e f, st')
  | widget {node : Fields} {f : Frame} {st st' : State} {type : Option Bytes} {widgetType : Bytes}
      {e : Entity}
      (htype : textField node "type" f.at_ = pure type)
        (hkind : NodeKind.ofType type = .widget widgetType)
      (hcreate : (createWidget cfg widgetType f).outcome st = some (.ok e, st')) :
      Calls cfg (.node (.obj node) f, st) (.inside node e f, st')
  | attributes {node : Fields} {e : Entity} {f inner : Frame} {st st' : State}
      (hregister : (registerNode node e f).outcome st = some (.ok inner, st')) :
      Calls cfg (.inside node e f, st) (.attributes e node inner {}, st')
  | children {node : Fields} {e : Entity} {f inner : Frame} {st st₁ st₂ st₃ : State} {grid : Grid}
      {nodes : List Value} (hregister : (registerNode node e f).outcome st = some (.ok inner, st₁))
      (hattributes : (applyAttributes cfg (instantiate cfg) e node inner {}).outcome st₁ = some
        (.ok grid, st₂))
      (hgrid : (finishGrid e grid).outcome st₂ = some (.ok (), st₃))
      (hnodes : node.get? "children" = some (.arr nodes)) (he : e.isPointer) :
      Calls cfg (.inside node e f, st)
        (.children nodes 0 { inner with parent := e, at_ := f.at_.key "children" }, st₃)
  | child {v : Value} {rest : List Value} {i : Nat} {f : Frame} {st : State} :
      Calls cfg (.children (v :: rest) i f, st) (.node v { f with at_ := f.at_.index i }, st)
  | nextChild {v : Value} {rest : List Value} {i : Nat} {f : Frame} {st st' : State}
      (hchild :
        (guarded (processNode cfg (instantiate cfg) v { f with at_ := f.at_.index i })).outcome st =
        some (.ok (), st')) :
      Calls cfg (.children (v :: rest) i f, st) (.children rest (i + 1) f, st')
  | withBlock {e : Entity} {block rest : Fields} {f : Frame} {grid : Grid} {st : State} :
      Calls cfg (.attributes e (("with", .obj block) :: rest) f grid, st)
        (.block e block f (f.at_.key "with"), st)
  | withBlocks {e : Entity} {blocks : List Value} {rest : Fields} {f : Frame} {grid : Grid}
      {st : State} : Calls cfg (.attributes e (("with", .arr blocks) :: rest) f grid, st)
        (.blocks e blocks 0 f (f.at_.key "with"), st)
  | nextAttribute {e : Entity} {pair : Bytes × Value} {rest : Fields} {f : Frame}
      {grid grid' : Grid} {st st' : State}
      (hpair : (applyAttributes cfg (instantiate cfg) e [pair] f grid).outcome st = some
        (.ok grid', st')) :
      Calls cfg (.attributes e (pair :: rest) f grid, st) (.attributes e rest f grid', st')
  | firstBlock {e : Entity} {block : Fields} {rest : List Value} {i : Nat} {f : Frame}
      {at_ : Pointer} {st : State} :
      Calls cfg (.blocks e (.obj block :: rest) i f at_, st) (.block e block f (at_.index i), st)
  | nextBlock {e : Entity} {block : Fields} {rest : List Value} {i : Nat} {f : Frame}
      {at_ : Pointer} {st st' : State}
      (hblock : (guarded (withBlock cfg (instantiate cfg) e block f (at_.index i))).outcome st =
        some (.ok (), st')) :
      Calls cfg (.blocks e (.obj block :: rest) i f at_, st) (.blocks e rest (i + 1) f at_, st')
  | inner {e target : Entity} {block inner : Fields} {f : Frame} {at_ : Pointer} {st st' : State}
      (htarget : (blockTarget cfg e block f at_).outcome st = some (.ok target, st'))
      (hinner : block.get? "do" = some (.obj inner)) :
      Calls cfg (.block e block f at_, st)
        (.inside inner target { f with at_ := at_.key "do" }, st')

def Call.ofDocument (cfg : Settings) : Value → Call
  | .arr nodes => .children nodes 0 (rootFrame cfg)
  | v => .node v (rootFrame cfg)

/-- The run of a document that begins in a state leads to a part of it, in another state. -/
def LeadsTo (cfg : Settings) (doc : Value) (st : State) (call : Call) (st' : State) : Prop :=
  Relation.ReflTransGen (Calls cfg) (.ofDocument cfg doc, st) (call, st')

/-- What holds at the beginning and is kept by every call holds of all that a run leads to. -/
lemma LeadsTo.invariant {cfg : Settings} {doc : Value} {st st' : State} {call : Call}
    {P : Call × State → Prop}
    (h : LeadsTo cfg doc st call st') (hstart : P (.ofDocument cfg doc, st))
    (hstep : ∀ a b, P a → Calls cfg a b → P b) : P (call, st') := by
  unfold LeadsTo at h
  generalize (call, st') = reached at h ⊢
  induction h with
  | refl => exact hstart
  | tail _ hcall ih => exact hstep _ _ ih hcall

def Reaches (cfg : Settings) (doc : Value) (st : State) (node : Fields) (f : Frame) (st' : State) :
    Prop :=
  LeadsTo cfg doc st (.node (.obj node) f) st'

end UiCodegen.Transpile
