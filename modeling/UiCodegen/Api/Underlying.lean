import UiCodegen.Api.Index

/-!
# What a type name stands for

Following typedefs from a name until something else is reached: a type of C itself, an enum, a
record, a pointer or a function pointer.  Cycles and chains of more than sixteen links end as
unknown.
-/

namespace UiCodegen.Api

/-- The end of a chain of typedefs. -/
structure Resolved where
  name : Bytes
  kind : Kind
  pointer : Bool := false
  deriving DecidableEq, Repr

/-- The integer types of the standard library. -/
def stdlibNames : List Bytes :=
  ["int8_t", "uint8_t", "int16_t", "uint16_t", "int32_t", "uint32_t", "int64_t", "uint64_t",
   "size_t", "ssize_t", "intptr_t", "uintptr_t", "ptrdiff_t"]

namespace Index

variable (ix : Index)

/-- What a typedef of `name` to `node` settles, or the name to go on with. -/
def follow (name : Bytes) (node : TypeNode) : Except Resolved Bytes :=
  let next : Except Resolved Bytes :=
    if node.name.isEmpty || node.name == name then .error { name, kind := .unknown }
    else .ok node.name
  match node.kind with
  | .pointer | .array => .error { name, kind := .pointer, pointer := true }
  | .functionPointer => .error { name, kind := .functionPointer }
  | .primitive => .error { name := node.name, kind := .primitive }
  | .stdlib =>
    if (ix.typedef? node.name).isSome then next else .error { name := node.name, kind := .stdlib }
  | .enum => if node.name.isEmpty then .error { name, kind := .enum } else next
  | .struct | .union =>
    if node.name.isEmpty then .error { name, kind := node.kind }
    else if (ix.record? node.name).isSome then next
    else .error { name := node.name, kind := node.kind }
  | _ => next

/-- One link: what `name` stands for, or the name to go on with. -/
def link (name : Bytes) : Except Resolved Bytes :=
  if CType.isPrimitiveName name then .error { name, kind := .primitive }
  else if ix.enumNames.contains name then .error { name, kind := .enum }
  else match ix.record? name with
    | some record => .error { name, kind := record.kind }
    | none =>
      match (ix.typedef? name).bind (·.type) with
      | some node => ix.follow name node
      | none => .error { name, kind := if stdlibNames.contains name then .stdlib else .unknown }

/-- Follows at most so many links from `name`, having come through `seen`. -/
def underlyingWithin (ix : Index) (seen : List Bytes) : (links : Nat) → Bytes → Resolved
  | 0, name => { name, kind := .unknown }
  | links + 1, name =>
    if seen.contains name then { name, kind := .unknown }
    else match ix.link name with
      | .error found => found
      | .ok next => underlyingWithin ix (name :: seen) links next

/-- What a name stands for in the end. -/
def underlying (name : Bytes) : Resolved :=
  ix.underlyingWithin [] (chainLimit + 1) name

/-- The record that a name stands for. -/
def struct? (name : Bytes) : Option StructRecord :=
  let r := ix.underlying name
  if r.kind == .struct || r.kind == .union then ix.record? r.name else none

/-- Whether a type is an enum. -/
def isEnumType (ctype : Bytes) : Bool :=
  match CType.parse? ctype with
  | none => false
  | some c =>
    c.pointers == 0 &&
      (ix.enumTypeNames.contains c.base || (ix.underlying c.base).kind == .enum)

/-- Whether a parameter of the type can take the implicit target: a pointer to a record, or to a
library type that is not described. -/
def isTargetType (ctype : Bytes) : Bool :=
  match CType.parse? ctype with
  | none => false
  | some c =>
    if c.pointers != 1 || CType.isPrimitiveName c.base || stdlibNames.contains c.base then false
    else match (ix.underlying c.base).kind with
      | .struct | .union => true
      | .unknown => Bytes.startsWith c.base "lv_"
      | _ => false

/-- Whether a chain, of which `depth` more links are followed, is or names a function pointer. -/
def isCallbackWithin (ix : Index) : (depth : Nat) → Option TypeNode → Bool
  | _, none => false
  | 0, _ => false
  | depth + 1, some node =>
    match node.kind with
    | .functionPointer => true
    | .returnType | .argument | .field => isCallbackWithin ix depth node.inner
    | .pointer | .array => false
    | _ =>
      if node.name.isEmpty then isCallbackWithin ix depth node.inner
      else (ix.underlying node.name).kind == .functionPointer

/-- Whether a chain is, or names, a function pointer. -/
def isCallback (node : Option TypeNode) : Bool :=
  ix.isCallbackWithin (chainLimit + 1) node

/-- Whether an octet may stand in the name of a widget. -/
def isWidgetOctet (b : UInt8) : Bool := Bytes.isLower b || Bytes.isDigit b || b == 95

/-- Whether `_add_` with something behind it occurs in a text. -/
def addsPart : Bytes → Bool
  | [] => false
  | b :: rest =>
    (Bytes.startsWith (b :: rest) "_add_" && 5 < rest.length + 1) || addsPart rest

/-- Whether a function is named like a constructor: `lv_`, a widget, and `_create` or `_add_` with a
part. -/
def isConstructorName (name : Bytes) : Bool :=
  match Bytes.dropHead? name "lv_" with
  | none => false
  | some rest =>
    rest.all isWidgetOctet &&
      ((Bytes.endsWith rest "_create" && 7 < rest.length) || addsPart (rest.drop 1))

/-- The functions that make widgets. -/
def constructors : List FunctionInfo :=
  ix.functions.filter fun f =>
    isConstructorName f.name && ((CType.parse? f.result).map (·.isPointer)).getD false

end Index

end UiCodegen.Api
