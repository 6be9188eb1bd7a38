import UiCodegen.Api.Underlying

/-!
# Classes of types

The class of a type decides how values are written for it.  It is found from the canonical type
string by following typedefs.
-/

namespace UiCodegen.Api

/-- What values of a type look like. -/
inductive TypeClass where
  | unknown | void | bool | int | float | enum | color | string | coordArray | pointer | struct
  | functionPointer
  deriving DecidableEq, Repr

/-- The name of a class. -/
def TypeClass.word : TypeClass → Bytes
  | unknown => "unknown"
  | void => "void"
  | bool => "bool"
  | int => "int"
  | float => "float"
  | enum => "enum"
  | color => "color"
  | string => "string"
  | coordArray => "coord_array"
  | pointer => "pointer"
  | struct => "struct"
  | functionPointer => "function_pointer"

/-- A classified type. -/
structure TypeInfo where
  ctype : CType
  cls : TypeClass
  /-- The scalar behind a number, boolean or array of coordinates. -/
  prim : Bytes := []
  pointee : Bytes := []
  /-- The record of a struct passed by value, or of the colour type. -/
  record : Option StructRecord := none
  enumName : Bytes := []
  deriving Repr

namespace TypeInfo

/-- Whether a type takes a string. -/
def isStringLike (t : TypeInfo) : Bool :=
  t.cls == .string || (t.cls == .pointer && t.ctype.pointers == 1 && t.ctype.base == "void")

/-- Whether a type is an unsigned integer. -/
def isUnsigned (t : TypeInfo) : Bool :=
  Bytes.startsWith t.prim "uint" || Bytes.startsWith t.prim "unsigned" || t.prim == "size_t" ||
  t.prim == "uintptr_t"

end TypeInfo

/-- The type of colours. -/
def colorType : Bytes := "lv_color_t"

/-- The class of a primitive type. -/
def scalarClass (name : Bytes) : TypeClass :=
  if name == "void" then .void
  else if name == "bool" || name == "_Bool" then .bool
  else if name == "float" || name == "double" || name == "long double" then .float
  else .int

/-- Whether a primitive type can be a coordinate. -/
def isCoordScalar (prim : Bytes) : Bool := prim == "int32_t" || prim == "int16_t" || prim == "int"

namespace Index

/-- Describes a type that is no pointer. -/
def describeBase (ix : Index) (c : CType) : TypeInfo :=
  let name := c.base
  if name == colorType then { ctype := c, cls := .color, record := ix.struct? name }
  else if ix.enumTypeNames.contains name then { ctype := c, cls := .enum, enumName := name }
  else
    let r := ix.underlying name
    match r.kind with
    | .primitive | .stdlib => { ctype := c, cls := scalarClass r.name, prim := r.name }
    | .enum => { ctype := c, cls := .enum, enumName := name }
    | .struct | .union => { ctype := c, cls := .struct, record := ix.struct? name }
    | .functionPointer => { ctype := c, cls := .functionPointer }
    | .pointer => { ctype := c, cls := .pointer }
    | _ => { ctype := c, cls := .unknown }

/-- Describes a pointer. -/
def describePointer (ix : Index) (c : CType) : TypeInfo :=
  let pointee := c.elem.text
  if c.base == "char" then { ctype := c, cls := .string, pointee }
  else
    let elem := ix.describeBase c.elem.unqualified
    if elem.cls == .int && isCoordScalar elem.prim then
      { ctype := c, cls := .coordArray, prim := elem.prim, pointee }
    else { ctype := c, cls := .pointer, pointee }

/-- Classifies a canonical type string.  A text that is no type is described as an array of no
name. -/
def describe (ix : Index) (ctype : Bytes) : TypeInfo :=
  match CType.parse? ctype with
  | none => { ctype := { base := [], dim := 0 }, cls := .unknown }
  | some c =>
    if 0 ≤ c.dim || 1 < c.pointers then { ctype := c, cls := .pointer }
    else if c.pointers == 1 then ix.describePointer c
    else ix.describeBase c

end Index

end UiCodegen.Api
