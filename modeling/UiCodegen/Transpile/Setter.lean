import UiCodegen.Transpile.Format

/-!
# Setters

An attribute of a node becomes one call of a setter.  The functions that may set it stand on a
ladder, the most specific first; the first of them that fits the shape of the value is called.
-/

namespace UiCodegen.Transpile

variable (cfg : Settings)

/-! ## Context variables -/

def maxVariables : Nat := 32

def followVariables (at_ : Pointer) : Nat → Value → Scope → Run (Value × Scope)
  | 0, _, _ => fail .nestedTooDeeply at_
  | steps + 1, v, s =>
    match v with
    | .str text =>
      match Form.ofString text with
      | .contextVar name =>
        match s.lookup? name with
        | some (bound, outer) => followVariables at_ steps bound outer
        | none => unbound name s at_
      | _ => pure (v, s)
    | _ => pure (v, s)

/-- The value that `v` stands for in a scope, and the scope to evaluate it in. -/
def deref (v : Value) (s : Scope) (at_ : Pointer) : Run (Value × Scope) :=
  followVariables at_ maxVariables v s

/-! ## The ladder -/

/-- The names of the functions that may set an attribute, the most specific first. -/
def setterNames (e : Entity) (key : Bytes) : List Bytes :=
  if e.setterPrefix == "lv_style" then ["lv_style_set_" ++ key, "lv_style_" ++ key]
  else
    let own := if e.setterPrefix.isEmpty || e.setterPrefix == "lv_obj" then []
      else [e.setterPrefix ++ "_set_" ++ key]
    own ++ ["lv_obj_set_" ++ key, "lv_obj_" ++ key, "lv_obj_add_" ++ key,
      "lv_obj_set_style_" ++ key]

/-- The functions of a ladder that can be called on an entity, and why the first of those that
cannot be used cannot. -/
def usable (cfg : Settings) : List Bytes → Run (List Api.FunctionInfo × Option Uncallable)
  | [] => pure ([], none)
  | name :: rest =>
    match cfg.index.function? name with
    | none => usable cfg rest
    | some f => do
      let why ← uncallable? cfg f
      let (fs, later) ← usable cfg rest
      match why with
      | some why => pure (fs, some why)
      | none =>
        if 1 ≤ f.arity && cfg.index.isTargetType (paramType f 0) then pure (f :: fs, later)
        else pure (fs, later)

/-! ## Fitting a value to a setter -/

/-- How a value fills the parameters of a setter behind the first one. -/
inductive SetterPlan where
  /-- The setter takes no value. -/
  | action
  /-- The value is one argument; `selector` says whether a selector of zero follows it. -/
  | whole (selector : Bool)
  /-- The items of an array are one argument each. -/
  | spread (selector : Bool)
  deriving DecidableEq, Repr

def takesWhole (ctype : Bytes) : Bool :=
  match (cfg.index.describe ctype).cls with
  | .coordArray | .struct => true
  | _ => false

/-- Fits a value to a setter.  Only the number of values counts, not their types. -/
def setterPlan? (f : Api.FunctionInfo) (v : Value) : Option SetterPlan :=
  let open_ := f.arity - 1
  let selector := hasSelector f
  match v with
  | .arr items =>
    if 1 ≤ open_ && takesWhole cfg (paramType f 1) && (open_ == 1 || (open_ == 2 && selector)) then
      some (.whole (open_ == 2))
    else if 1 < open_ && items.length == open_ then some (.spread false)
    else if selector && 1 ≤ items.length && items.length + 1 == open_ then some (.spread true)
    else none
  | _ =>
    if open_ == 0 then some .action
    else if open_ == 1 then some (.whole false)
    else if open_ == 2 && selector then some (.whole true)
    else none

def describeValue : Value → Bytes
  | .arr items => "an array of " ++ Bytes.ofNat items.length ++ " values"
  | v => "a " ++ v.typeName

def itemsOf : Value → List Value
  | .arr items => items
  | _ => []

/-- The arguments of a setter behind its target.  There are none to give, and no call to make, if an
action is set to `false`. -/
def setterArgs (p : Place) (f : Api.FunctionInfo) (plan : SetterPlan) (v : Value) :
    Run (Option (List Expr)) :=
  let zero (selector : Bool) : List Expr := if selector then [.text "0"] else []
  match plan with
  | .action =>
    match v with
    | .bool true | .null => pure (some [])
    | .bool false => pure none
    | v => fail (.takesNoValue f.name (describeValue v)) p.at_
  | .whole selector => do
    let e ← format cfg p v (paramType f 1)
    pure (some (e :: zero selector))
  | .spread selector => do
    let es ← formatItems cfg p 0 (itemsOf v) (fun i => paramType f (i + 1))
    pure (some (es ++ zero selector))

/-- Where a node stands. -/
structure Frame where
  parent : Entity
  scope : Scope := []
  path : Bytes := []
  at_ : Pointer := {}

def applySetter (e : Entity) (key : Bytes) (raw : Value) (f : Frame)
    (at_ : Pointer) : Run Unit := do
  let (v, scope) ← deref raw f.scope at_
  let (setters, why) ← usable cfg (setterNames e key)
  if setters.isEmpty then
    match why with
    | some why => fail (.uncallableAttribute key why) at_
    | none => fail (.unknownAttribute key e.nodeType) at_
  else
    match setters.findSome? fun setter => (setterPlan? cfg setter v).map fun plan =>
      (setter, plan) with
    | none => fail (.noFittingSetter key (describeValue v)) at_
    | some (setter, plan) =>
      let place : Place :=
        { scope, path := f.path, entity := e, at_
          arrayBase := e.cname ++ "_" ++ C.identifier key, function := setter.name }
      match ← setterArgs cfg place setter plan v with
      | some args => emit (.call setter.name (.entity e :: args))
      | none => pure ()

/-! ## Grids

The columns and rows of a grid are set by one call.  It is written as soon as both are known, again
whenever one of them changes, and at the end if only one of them is known. -/

/-- The arrays that hold the columns and rows of a grid. -/
structure Grid where
  cols : Option Bytes := none
  rows : Option Bytes := none
  emitted : Bool := false
  deriving DecidableEq, Repr

def templateType : Bytes := "lv_coord_t"

def gridCall (e : Entity) (g : Grid) : Statement :=
  let array (name : Option Bytes) : Expr := (name.map Expr.static).getD (.text "NULL")
  .call "lv_obj_set_grid_dsc_array" [.entity e, array g.cols, array g.rows]

def emitGrid (e : Entity) (g : Grid) : Run Grid := do
  emit (gridCall e g)
  pure { g with emitted := true }

def gridTemplate (e : Entity) (g : Grid) (key : Bytes) (raw : Value) (f : Frame)
    (at_ : Pointer) : Run Grid := do
  let (v, scope) ← deref raw f.scope at_
  match v with
  | .arr items =>
    let place : Place := { scope, path := f.path, entity := e, at_ }
    let entries ← formatItems cfg place 0 items (fun _ => templateType)
    let name ← staticArray (e.cname ++ "_" ++ key) templateType (closeTemplate entries)
    let g := if key == "cols" then { g with cols := some name } else { g with rows := some name }
    if g.cols.isSome && g.rows.isSome then emitGrid e g else pure g
  | v => fail (.gridNotArray key v.typeName) at_

/-- Writes the call of a grid of which only one part is known. -/
def finishGrid (e : Entity) (g : Grid) : Run Unit := do
  if !g.emitted && (g.cols.isSome || g.rows.isSome) then
    let _ ← emitGrid e g

end UiCodegen.Transpile
