import UiCodegen.Transpile.Setter

/-!
# Nodes

A node is a widget, a style, the definition of a component, the use of one, or a context around
another node.  Nodes are processed depth first in document order, so that code for a node stands in
front of the code for what follows it.

The node that a component stands for is no part of the node that uses it, so the recursion over a
document is not enough to process uses: they are handed to a function that instantiates a component.
`UiCodegen.Transpile.Instance` ties that knot.
-/

namespace UiCodegen.Transpile

variable (node : Fields)

/-! ## Keys of nodes -/

def defaultType : Bytes := "obj"

/-- What a node is. -/
inductive NodeKind where
  | component
  | use
  | context
  | style
  | widget (type : Bytes)
  deriving DecidableEq, Repr

/-- The kind that the type of a node says; an empty type says nothing. -/
def NodeKind.ofType (type : Option Bytes) : NodeKind :=
  let type := (type.filter (!·.isEmpty)).getD defaultType
  if type == "component" then .component
  else if type == "use-view" then .use
  else if type == "context" then .context
  else if type == "style" then .style
  else .widget type

def metaKeys : List Bytes :=
  ["type", "id", "context", "children", "named", "with", "do"].map Bytes.ofString

/-- The text under a key, which may be absent but must not be anything else. -/
def textField (key : Bytes) (at_ : Pointer) : Run (Option Bytes) :=
  match node.get? key with
  | none => pure none
  | some (.str text) => pure (some text)
  | some v => violate (.notString key v.typeName) (at_.key key)

/-- The object under a key, which may be absent but must not be anything else. -/
def objectField (key : Bytes) (at_ : Pointer) : Run (Option Fields) :=
  match node.get? key with
  | none => pure none
  | some (.obj fields) => pure (some fields)
  | some v => violate (.notObject key v.typeName) (at_.key key)

def componentName (kind : Bytes) (at_ : Pointer) : Run Bytes := do
  match ← textField node "id" at_ with
  | some (64 :: b :: rest) => pure (b :: rest)
  | _ => violate (.missingId kind) at_

/-! ## New entities -/

/-- Whether a text can be a widget type: small letters, digits and `_` behind a small letter. -/
def isWidgetType (s : Bytes) : Bool :=
  let isSmall (b : UInt8) : Bool := 97 ≤ b && b ≤ 122
  match s with
  | [] => false
  | b :: rest => isSmall b && rest.all fun b => isSmall b || Bytes.isDigit b || b == 95

def nextNumber : Run Nat := do
  modify fun st => { st with counter := st.counter + 1 }
  pure (← get).counter

def countEntity : Run Unit := modify fun st => { st with entities := st.entities + 1 }

def createStyle : Run Entity := do
  let name := numbered "c_style" (← nextNumber)
  define (.style name)
  emit (.initStyle name)
  countEntity
  pure { cname := name, ctype := "lv_style_t", isPointer := false, nodeType := "style",
         setterPrefix := "lv_style" }

def createWidget (cfg : Settings) (type : Bytes) (f : Frame) : Run Entity := do
  let at_ := f.at_.key "type"
  if !isWidgetType type then fail (.badWidgetType type) at_
  else
    let setterPrefix := if type == "grid" then Bytes.ofString "lv_obj" else "lv_" ++ type
    let constructor := setterPrefix ++ "_create"
    match cfg.index.function? constructor with
    | none => fail (.unknownWidgetType type constructor) at_
    | some function =>
      match ← uncallable? cfg function with
      | some why => fail (.uncallableConstructor constructor why) at_
      | none =>
        if function.arity != 1 || !Bytes.endsWith function.result "*" then
          fail (.notConstructor constructor) at_
        else
          let name := numbered (C.identifier type) (← nextNumber)
          emit (.create function.result name constructor f.parent)
          countEntity
          pure { cname := name, ctype := function.result, isPointer := true, nodeType := type,
                 setterPrefix }

/-! ## Names and contexts -/

def registerId (e : Entity) (at_ : Pointer) : Run Unit := do
  match ← textField node "id" at_ with
  | none => pure ()
  | some id =>
    let name := Bytes.trimHead id "@"
    if name.isEmpty then violate (.emptyText "id") (at_.key "id") else register ("@" ++ name) e

def registerName (e : Entity) (path : Bytes) (at_ : Pointer) : Run Bytes := do
  match ← textField node "named" at_ with
  | none => pure path
  | some name =>
    if name.isEmpty then violate (.emptyText "named") (at_.key "named")
    else
      let path := Registry.joinPath path name
      register path e
      pure path

/-- Registers a node under its names, and yields the frame for its attributes and children. -/
def registerNode (e : Entity) (f : Frame) : Run Frame := do
  registerId node e f.at_
  let path ← registerName node e f.path f.at_
  let context ← objectField node "context" f.at_
  pure { f with path, scope := f.scope.extend context }

/-! ## Components -/

def defineComponent (at_ : Pointer) : Run Unit := do
  let name ← componentName node "component" at_
  match ← objectField node "root" at_ with
  | none => violate (.missingRoot name) at_
  | some root =>
    if ((← get).components.lookup name).isSome then warn (.redefined name) at_
    modify fun st => { st with components := (name, root) :: st.components }

def noteIgnored (keys : List Bytes) (at_ : Pointer) : Run Unit :=
  let records := keys.map fun key =>
    { level := .debug, message := "ignoring key on use-view",
      attributes := [("key", key), ("pointer", at_.display)] : Log.Record }
  modify fun st => { st with log := records.reverse ++ st.log }

def useComponent (instantiate : Fields → Frame → Run Unit) (node : Fields) (f : Frame) :
    Run Unit := do
  let name ← componentName node "use-view" f.at_
  let context ← objectField node "context" f.at_
  match (← get).components.lookup name with
  | none => fail (.undefinedComponent name) f.at_
  | some root =>
    noteIgnored (node.keys.filter fun key => key != "type" && key != "id" && key != "context") f.at_
    instantiate root { f with scope := f.scope.extend context }

/-! ## Targets of `with` blocks -/

def setterPrefixFor (ctype : Bytes) : Bytes :=
  match Api.CType.parse? ctype with
  | some c =>
    if Bytes.startsWith c.base "lv_" then (Bytes.dropTail? c.base "_t").getD c.base else "lv_obj"
  | none => "lv_obj"

def localFor (e : Expr) (result : Bytes) : Run Entity := do
  modify fun st => { st with withCount := st.withCount + 1 }
  let name := numbered "with" (← get).withCount
  let ctype := Bytes.trimHead result "const "
  modify fun st => { st with locals := { ctype, name } :: st.locals }
  emit (.assign name (if ctype == result then none else some ctype) e)
  pure { cname := name, ctype, isPointer := true, nodeType := "with",
         setterPrefix := setterPrefixFor ctype }

/-- The entity that a `with` block is about. -/
def withTarget (cfg : Settings) (raw : Value) (e : Entity) (f : Frame) (at_ : Pointer) :
    Run Entity := do
  let (v, scope) ← deref raw f.scope at_
  match Form.ofValue v with
  | .error why => fail (.badTarget why) at_
  | .ok (.ref name) =>
    match (← get).registry.resolve? name f.path with
    | some found => pure found
    | none => fail (.unknownReference name) at_
  | .ok (.call function args) =>
    let (call, result) ← formatCall cfg { scope, path := f.path, entity := e, at_ } function args
    if Bytes.endsWith result "*" then localFor call result
    else fail (.targetNotPointer function result) at_
  | .ok _ => fail .targetKind at_

/-- The entity that a `with` block is applied to; the one at hand if the block names none. -/
def blockTarget (cfg : Settings) (e : Entity) (block : Fields) (f : Frame) (at_ : Pointer) :
    Run Entity :=
  match block.get? "obj" with
  | some v => withTarget cfg v e f (at_.key "obj")
  | none => pure e

/-! ## Processing -/

variable (cfg : Settings) (instantiate : Fields → Frame → Run Unit)

mutual

def processNode (v : Value) (f : Frame) : Run Unit :=
  match v with
  | .obj node => processFields node f
  | v => violate (.nodeType v.typeName) f.at_
termination_by (sizeOf v, 0)

def processFields (node : Fields) (f : Frame) : Run Unit := do
  match NodeKind.ofType (← textField node "type" f.at_) with
  | .component => defineComponent node f.at_
  | .use => useComponent instantiate node f
  | .context =>
    match ← objectField node "values" f.at_ with
    | none => violate .missingValues f.at_
    | some values =>
      match h : node.get? "for" with
      | none => violate .missingBody f.at_
      | some (.obj body) =>
        have := Fields.sizeOf_lt_of_get?_obj h
        processFields body
          { f with scope := f.scope.extend (some values), at_ := f.at_.key "for" }
      | some v => violate (.notObject "for" v.typeName) (f.at_.key "for")
  | .style => populate node (← createStyle) f
  | .widget type => populate node (← createWidget cfg type f) f
termination_by (sizeOf node, 2)

/-- Registers an entity, sets its attributes and processes its children.  The same is done for the
inner part of a `with` block. -/
def populate (node : Fields) (e : Entity) (f : Frame) : Run Unit := do
  let inner ← registerNode node e f
  let grid ← applyAttributes e node inner {}
  finishGrid e grid
  match h : node.get? "children" with
  | none => pure ()
  | some (.arr children) =>
    have := Fields.sizeOf_lt_of_get?_arr h
    if e.isPointer then
      processChildren children 0
        { inner with parent := e, at_ := f.at_.key "children" }
    else warn (.noChildren e.nodeType) (f.at_.key "children")
  | some v => violate (.childrenType v.typeName) (f.at_.key "children")
termination_by (sizeOf node, 1)

/-- Processes children from number `i` on; the frame is that of the array. -/
def processChildren (children : List Value) (i : Nat) (f : Frame) : Run Unit :=
  match children with
  | [] => pure ()
  | child :: rest => do
    guarded (processNode child { f with at_ := f.at_.index i })
    processChildren rest (i + 1) f
termination_by (sizeOf children, 0)

def applyAttributes (e : Entity)
    (pairs : List (Bytes × Value)) (f : Frame) (grid : Grid) : Run Grid :=
  match pairs with
  | [] => pure grid
  | (key, v) :: rest => do
    let at_ := f.at_.key key
    let grid ← recover grid <|
      if key == "with" then do
        applyWith e v f at_
        pure grid
      else if metaKeys.contains key then pure grid
      else if e.nodeType == "grid" && (key == "cols" || key == "rows") then
        gridTemplate cfg e grid key v f at_
      else do
        applySetter cfg e key v f at_
        pure grid
    applyAttributes e rest f grid
termination_by (sizeOf pairs, 0)

/-- Processes one `with` block or several. -/
def applyWith (e : Entity) (v : Value) (f : Frame) (at_ : Pointer) : Run Unit :=
  match v with
  | .obj block => withBlock e block f at_
  | .arr blocks => withBlocks e blocks 0 f at_
  | v => violate (.withType v.typeName) at_
termination_by (sizeOf v, 0)

/-- Processes `with` blocks from number `i` on. -/
def withBlocks (e : Entity)
    (blocks : List Value) (i : Nat) (f : Frame) (at_ : Pointer) : Run Unit :=
  match blocks with
  | [] => pure ()
  | .obj block :: rest => do
    guarded (withBlock e block f (at_.index i))
    withBlocks e rest (i + 1) f at_
  | v :: _ => violate (.withBlockType v.typeName) (at_.index i)
termination_by (sizeOf blocks, 0)

/-- Processes a `with` block: its inner part is applied to its target. -/
def withBlock (e : Entity) (block : Fields) (f : Frame) (at_ : Pointer) : Run Unit := do
  let target ← blockTarget cfg e block f at_
  match h : block.get? "do" with
  | none => pure ()
  | some (.obj inner) =>
    have := Fields.sizeOf_lt_of_get?_obj h
    populate inner target { f with at_ := at_.key "do" }
  | some v => violate (.notObject "do" v.typeName) (at_.key "do")
termination_by (sizeOf block, 0)

end

end UiCodegen.Transpile
