import UiCodegen.Api.Size

/-!
# Functions that documents can call

A function can be called from a document if each parameter and the value returned can be made from a
document value.  Records pass by value only if they are small and hold nothing but scalars.
-/

namespace UiCodegen.Api

/-- The largest record passed by value, in bytes. -/
def maxByValueSize : Int64 := 8

/-- Why a type cannot take part in a call. -/
inductive Obstacle where
  | variadic
  | callback
  | pointerToPointer
  | voidParameter
  | unknownType (ctype : Bytes)
  | unionByValue
  | unknownSize
  | tooLarge
  | nonScalarFields
  deriving DecidableEq, Repr

/-- The text of an obstacle. -/
def Obstacle.message : Obstacle → Bytes
  | variadic => "variadic"
  | callback => "callback argument"
  | pointerToPointer => "pointer to pointer"
  | voidParameter => "void parameter"
  | unknownType ctype => "unknown type " ++ ctype
  | unionByValue => "union by value"
  | unknownSize => "struct of unknown size by value"
  | tooLarge => "struct by value larger than 8 bytes"
  | nonScalarFields => "struct by value with non-scalar fields"

/-- A function that cannot be called, with the parameter that is to blame; the parameter is empty if
it is the function itself. -/
structure Unrepresentable where
  function : Bytes
  param : Bytes
  obstacle : Obstacle
  deriving DecidableEq, Repr

/-- The wording for a reader who sees no function beside it. -/
def Unrepresentable.message (u : Unrepresentable) : Bytes :=
  u.function ++ ": " ++ Bytes.onlyIf (!u.param.isEmpty) ("parameter " ++ u.param ++ ": ") ++
  u.obstacle.message

/-- The obstacle with the parameter it is met at. -/
def Unrepresentable.reason (u : Unrepresentable) : Bytes :=
  Bytes.onlyIf (!u.param.isEmpty) (u.param ++ ": ") ++ u.obstacle.message

namespace Index

variable (ix : Index)

/-- Whether a field is a number or an enum. -/
def isScalarField (f : FieldRecord) : Bool :=
  match (ix.describe (ix.fieldType f)).cls with
  | .int | .bool | .float | .enum => true
  | _ => false

/-- Whether a type is a record of scalars that is small enough to pass by value. -/
def isSmallStruct (ctype : Bytes) : StateM Sizes Bool := do
  match (ix.describe ctype).record with
  | none => pure false
  | some record =>
    if record.kind == .union then pure false
    else
      let n ← ix.sizeOf ctype
      pure (0 ≤ n && n ≤ maxByValueSize && record.fields.all ix.isScalarField)

/-- What keeps a record from passing by value, if anything does. -/
def structObstacle? (ctype : Bytes) (record : Option StructRecord) :
    StateM Sizes (Option Obstacle) := do
  if (record.map (·.kind)) == some .union then pure (some .unionByValue)
  else
    let n ← ix.sizeOf ctype
    if n < 0 then pure (some .unknownSize)
    else if maxByValueSize < n then pure (some .tooLarge)
    else if ← ix.isSmallStruct ctype then pure none
    else pure (some .nonScalarFields)

/-- What keeps a type from taking part in a call, if anything does. -/
def typeObstacle? (ctype : Bytes) (chain : Option TypeNode) (isResult : Bool) :
    StateM Sizes (Option Obstacle) := do
  if !isResult && ix.isCallback chain then pure (some .callback)
  else
    let info := ix.describe ctype
    if 1 < info.ctype.pointers then pure (some .pointerToPointer)
    else match info.cls with
      | .void => pure (if isResult then none else some .voidParameter)
      | .functionPointer => pure (if isResult then none else some .callback)
      | .unknown => pure (some (.unknownType ctype))
      | .struct => ix.structObstacle? ctype info.record
      | _ => pure none

/-- The first parameter that cannot be passed. -/
def paramsObstacle? (ix : Index) (function : Bytes) :
    List Param → StateM Sizes (Option Unrepresentable)
  | [] => pure none
  | p :: rest => do
    match ← ix.typeObstacle? p.ctype p.chain false with
    | some obstacle => pure (some { function, param := p.name, obstacle })
    | none => paramsObstacle? ix function rest

/-- What keeps a function from being called, if anything does. -/
def unrepresentable? (f : FunctionInfo) : StateM Sizes (Option Unrepresentable) := do
  if f.variadic then pure (some { function := f.name, param := [], obstacle := .variadic })
  else match ← ix.typeObstacle? f.result f.resultChain true with
    | some obstacle => pure (some { function := f.name, param := "return", obstacle })
    | none => ix.paramsObstacle? f.name f.params

end Index

end UiCodegen.Api
