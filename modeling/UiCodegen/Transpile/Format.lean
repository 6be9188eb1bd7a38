import UiCodegen.C.Identifier
import UiCodegen.Transpile.State

/-!
# Values as C expressions

A document value becomes a C expression of the type of a parameter.  What a value may become depends
on its form and on the class of the type.  A context variable is formatted as the value bound to it,
in the scope outside the binding; scopes shrink on the way and other values are taken apart, so
formatting ends whatever the bindings refer to.
-/

namespace UiCodegen.Transpile

/-- Where and for what a value is formatted. -/
structure Place where
  scope : Scope
  /-- The path that relative references begin from. -/
  path : Bytes
  /-- The entity that calls take for a target they leave out. -/
  entity : Entity
  at_ : Pointer
  /-- What static arrays made for the value are named by. -/
  arrayBase : Bytes := []
  /-- The function that receives the value. -/
  function : Bytes := []

variable (p : Place) (cfg : Settings)

namespace Place

/-- The place of item number `i`. -/
def index (i : Nat) : Place := { p with at_ := p.at_.index i }

/-- The place of the value under a key. -/
def key (key : Bytes) : Place := { p with at_ := p.at_.key key }

/-- Fails, since the type takes no such value. -/
def mismatch {α : Type} (what ctype : Bytes) : Run α :=
  fail (.mismatch what ctype p.function) p.at_

end Place

/-- Six hexadecimal digits, or more if the number needs them. -/
def hexColor (n : Nat) : Bytes :=
  Bytes.toUpper (Integer.fixedWidth 16 (max 6 (Nat.toDigits 16 n).length) n)

def gridTemplateLast : Bytes := "LV_GRID_TEMPLATE_LAST"

/-- Ends a grid template with its last entry, if it does not end with it. -/
def closeTemplate (items : List Expr) : List Expr :=
  if (items.getLast?.map Expr.render) == some gridTemplateLast then items
  else items ++ [.text gridTemplateLast]

def takesTemplates (function : Bytes) : Bool :=
  Bytes.includes function "grid" && Bytes.includes function "dsc"

/-- Whether a type takes percentages.  Its declared name decides, whatever it stands for. -/
def isPercentType (c : Api.CType) : Bool :=
  c.pointers == 0 && c.dim < 0 && (c.base == "lv_coord_t" || c.base == "int32_t")

def isDefineSpace (b : UInt8) : Bool := b == 9 || b == 10 || b == 12 || b == 13 || b == 32

/-- Whether a text is the use of a definition with arguments, such as `LV_GRID_FR(1)`. -/
def isDefineUse (s : Bytes) : Bool :=
  let isNameStart (b : UInt8) : Bool := Bytes.isUpper b || b == 95
  let isNameOctet (b : UInt8) : Bool := isNameStart b || Bytes.isDigit b
  ((s.head?.map isNameStart).getD false) &&
    match (s.dropWhile isNameOctet).dropWhile isDefineSpace with
    | 40 :: rest => rest.getLast? == some 41 && !rest.contains 10
    | _ => false

/-! ## Scalars -/

def formatColor (rgb : Nat) (ctype : Bytes) (info : Api.TypeInfo) : Run Expr :=
  if info.cls == .color then pure (.text ("lv_color_hex(0x" ++ hexColor rgb ++ ")"))
  else if info.cls == .int then pure (.text ("0x" ++ hexColor rgb))
  else if info.isStringLike then pure (.text (C.quote ("#" ++ hexColor rgb)))
  else p.mismatch "color" ctype

def formatPercent (n : Int) (ctype : Bytes) (info : Api.TypeInfo) : Run Expr :=
  if isPercentType info.ctype then pure (.text ("lv_pct(" ++ Bytes.ofInt n ++ ")"))
  else if info.isStringLike then pure (.text (C.quote (Bytes.ofInt n ++ "%")))
  else p.mismatch "percentage" ctype

/-- A bare string: text, the name of a constant, or the use of a definition. -/
def formatIdent (p : Place) (text ctype : Bytes) (info : Api.TypeInfo) :
    Run Expr :=
  if info.isStringLike then pure (.text (C.quote text))
  else match cfg.enums.resolve? text with
    | some found => pure (.text found.c)
    | none =>
      if isDefineUse (Blank.trim text) then pure (.text (Blank.trim text))
      else fail (.unknownIdentifier text ctype) p.at_

def formatNumber (literal ctype : Bytes) (info : Api.TypeInfo) : Run Expr :=
  let isInt := !literal.any fun b => b == 46 || b == 101 || b == 69
  match info.cls with
  | .int =>
    if !isInt then fail (.needsInteger ctype literal) p.at_
    else if info.isUnsigned && Bytes.startsWith literal "-" then
      fail (.needsUnsigned ctype literal) p.at_
    else pure (.text literal)
  | .enum =>
    if isInt then pure (.text ("(" ++ ctype ++ ")" ++ literal))
    else fail (.needsInteger ctype literal) p.at_
  | .float =>
    pure (.text (literal ++ Bytes.onlyIf isInt ".0" ++ Bytes.onlyIf (info.prim == "float") "f"))
  | .bool =>
    if literal == "0" then pure (.text "false")
    else if literal == "1" then pure (.text "true")
    else fail (.needsTruth literal) p.at_
  | .color =>
    match Integer.parseUnsigned? (.fixed 10) literal with
    | some n =>
      if n < Nat.pow 2 32 then pure (.text ("lv_color_hex(0x" ++ hexColor n ++ ")"))
      else fail (.needsColor literal) p.at_
    | none => fail (.needsColor literal) p.at_
  | .pointer | .string | .coordArray | .functionPointer =>
    if literal == "0" then pure (.text "NULL") else fail (.needsNull ctype literal) p.at_
  | .unknown => pure (.text literal)
  | _ => p.mismatch "number" ctype

def formatBool (v : Bool) (ctype : Bytes) (info : Api.TypeInfo) : Run Expr :=
  match info.cls with
  | .bool => pure (.text (if v then Bytes.ofString "true" else Bytes.ofString "false"))
  | .int | .enum => pure (.text (if v then Bytes.ofString "1" else Bytes.ofString "0"))
  | _ => p.mismatch "boolean" ctype

/-- Nothing, which only a pointer can be. -/
def formatNull (ctype : Bytes) (info : Api.TypeInfo) : Run Expr :=
  if info.ctype.isPointer || info.cls == .functionPointer || info.cls == .pointer then
    pure (.text "NULL")
  else p.mismatch "null" ctype

/-- A reference.  One that the document does not define is left to the running program. -/
def formatRef (name ctype : Bytes) (info : Api.TypeInfo) : Run Expr := do
  if !info.ctype.isPointer then fail (.referenceNeedsPointer name ctype) p.at_
  else match (← get).registry.resolve? name p.path with
    | some e => pure (.entity e)
    | none =>
      warn (.externalReference name) p.at_
      declareLookup
      pure (.registered ctype name info.ctype.elem.base)

def formatString (p : Place) (s ctype : Bytes) (info : Api.TypeInfo) : Run Expr :=
  match Form.ofString s with
  | .ref name => formatRef p name ctype info
  | .staticText text => do
    if info.isStringLike then pure (.static (← internString text))
      else p.mismatch "static string" ctype
  | .literal text =>
    if info.isStringLike then pure (.text (C.quote text)) else p.mismatch "string" ctype
  | .color rgb => formatColor p rgb ctype info
  | .percent n => formatPercent p n ctype info
  | .ident text => formatIdent cfg p text ctype info
  | _ => p.mismatch "string" ctype

/-- An unbound variable, with what could have been meant. -/
def unbound {α : Type} (name : Bytes) (s : Scope) (at_ : Pointer) : Run α :=
  fail (.unbound name s.names) at_

/-! ## Calls -/

/-- How the arguments of a call are completed. -/
structure CallPlan where
  /-- The entity comes first. -/
  target : Bool := false
  /-- A selector of zero comes last. -/
  selector : Bool := false
  deriving DecidableEq, Repr

def callPlan? (f : Api.FunctionInfo) (count : Nat) : Option CallPlan :=
  if count == f.arity then some {}
  else if count + 1 == f.arity && cfg.index.isTargetType (paramType f 0) then
    some { target := true }
  else if count + 1 == f.arity && hasSelector f then some { selector := true }
  else none

def calledFunction (p : Place) (name : Bytes) : Run Api.FunctionInfo := do
  match cfg.index.function? name with
  | none => fail (.unknownFunction name) p.at_
  | some f =>
    match ← uncallable? cfg f with
    | some why => fail (.uncallableFunction name why) p.at_
    | none => pure f

/-- An object is larger than a call without arguments. -/
theorem sizeOf_nil_lt (fields : Fields) : sizeOf ([] : List Value) < 1 + sizeOf fields := by
  have nil : sizeOf ([] : List Value) = 1 := by simp
  cases fields with
  | nil => simp
  | cons field rest =>
    have cons : sizeOf (field :: rest) = 1 + sizeOf field + sizeOf rest := by simp
    omega

/-- The arguments of a call are no larger than the object that holds it. -/
theorem sizeOf_callArgs_lt {fields : Fields} {function : Bytes} {args : List Value}
    (h : Form.ofFields fields = .ok (.call function args)) : sizeOf args < 1 + sizeOf fields := by
  unfold Form.ofFields at h
  split at h
  · cases h
  · cases h
  · split at h
    · simp only [Except.ok.injEq, Form.call.injEq] at h
      obtain ⟨_, rfl⟩ := h
      exact sizeOf_nil_lt fields
    · simp only [Except.ok.injEq, Form.call.injEq] at h
      obtain ⟨_, rfl⟩ := h
      exact sizeOf_nil_lt fields
    · rename_i found
      simp only [Except.ok.injEq, Form.call.injEq] at h
      obtain ⟨_, rfl⟩ := h
      have := Fields.sizeOf_get?_lt found
      simp only [Value.arr.sizeOf_spec] at this
      omega
    · cases h
  · cases h

mutual

def format (p : Place) (v : Value) (ctype : Bytes) : Run Expr :=
  let info := cfg.index.describe ctype
  match v with
  | .null => formatNull p ctype info
  | .bool b => formatBool p b ctype info
  | .num literal => formatNumber p literal ctype info
  | .str s =>
    match Form.ofString s with
    | .contextVar name =>
      match h : p.scope.lookup? name with
      | some (bound, outer) =>
        have : outer.length < p.scope.length := Scope.length_lookup?_lt h
        format { p with scope := outer } bound ctype
      | none => unbound name p.scope p.at_
    | _ => formatString cfg p s ctype info
  | .arr items =>
    match info.cls with
    | .coordArray => do
      let elem := info.ctype.elem.unqualified.text
      let values ← formatItems p 0 items (fun _ => elem)
      let values := if takesTemplates p.function then closeTemplate values else values
      let base := if p.arrayBase.isEmpty then Bytes.ofString "c_arr" else p.arrayBase
      pure (.static (← staticArray base elem values))
    | .struct | .color =>
      match info.record with
      | none => p.mismatch "array" ctype
      | some record => do
        if items.length != record.fields.length then
          fail (.fieldCount ctype record.fields.length items.length) p.at_
        else
          let types := record.fields.map cfg.index.fieldType
          let values ← formatItems p 0 items (fun i => (types[i]?).getD [])
          pure (.compound info.ctype.unqualified.text (values.map fun e => ([], e)))
    | _ => p.mismatch "array" ctype
  | .obj fields =>
    match h : Form.ofFields fields with
    | .error why => fail (.badValue why) p.at_
    | .ok (.call function args) => do
      have : sizeOf args < 1 + sizeOf fields := sizeOf_callArgs_lt h
      let (e, result) ← formatCall p function args
      if result == "void" then fail (.returnsVoid function) p.at_ else pure e
    | .ok _ =>
      if info.cls == .struct || info.cls == .color then
        match info.record with
        | none => p.mismatch "object" ctype
        | some record => do
          let parts ← formatFields p ctype record fields
          pure (.compound info.ctype.unqualified.text parts)
      else p.mismatch "object" ctype
termination_by (p.scope.length, sizeOf v, 0)

/-- Formats items one after the other, from number `i` on. -/
def formatItems (p : Place) (i : Nat) (items : List Value) (typeOf : Nat → Bytes) :
    Run (List Expr) :=
  match items with
  | [] => pure []
  | item :: rest => do
    let e ← format (p.index i) item (typeOf i)
    let es ← formatItems p (i + 1) rest typeOf
    pure (e :: es)
termination_by (p.scope.length, sizeOf items, 0)

def formatFields (p : Place) (ctype : Bytes) (record : Api.StructRecord)
    (fields : List (Bytes × Value)) : Run (List (Bytes × Expr)) :=
  match fields with
  | [] => pure []
  | (key, v) :: rest => do
    match Api.lastNamed? Api.FieldRecord.name key record.fields with
    | none => fail (.unknownField ctype key) (p.at_.key key)
    | some field =>
      let e ← format (p.key key) v (cfg.index.fieldType field)
      let es ← formatFields p ctype record rest
      pure ((46 :: key ++ " = ", e) :: es)
termination_by (p.scope.length, sizeOf fields, 0)

def formatCall (p : Place) (function : Bytes) (args : List Value) : Run (Expr × Bytes) := do
  let f ← calledFunction cfg p function
  match callPlan? cfg f args.length with
  | none => fail (.argumentCount f.name f.arity args.length) p.at_
  | some plan =>
    let base := if p.arrayBase.isEmpty then C.identifier f.name ++ "_arg" else p.arrayBase
    let inner : Place := { p with at_ := p.at_.key "args", function := f.name, arrayBase := base }
    let skipped := if plan.target then 1 else 0
    let values ← formatItems inner 0 args (fun i => paramType f (i + skipped))
    let first := if plan.target then [Expr.entity p.entity] else []
    let last := if plan.selector then [Expr.text "0"] else []
    pure (.call f.name (first ++ values ++ last), f.result)
termination_by (p.scope.length, sizeOf args, 1)

end

end UiCodegen.Transpile
