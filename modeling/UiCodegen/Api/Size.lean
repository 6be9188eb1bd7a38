import UiCodegen.Api.Describe

/-!
# Sizes of types

The size of a type on a 64-bit target, in bytes, with the usual alignment of fields.  Sizes that
have been found are kept, and so is the fact that a size is being looked for: a record that contains
itself has no size.  The sizes known so far are therefore part of every query.
-/

namespace UiCodegen.Api

/-- The sizes known so far, by type string, latest first.  A negative size is unknown. -/
abbrev Sizes := List (Bytes × Int64)

/-- The sizes of the types of the language, in octets. -/
def scalarSizes : List (Bytes × Int64) :=
  [("char", 1), ("signed char", 1), ("unsigned char", 1), ("bool", 1), ("_Bool", 1),
   ("int8_t", 1), ("uint8_t", 1),
   ("short", 2), ("unsigned short", 2), ("int16_t", 2), ("uint16_t", 2),
   ("int", 4), ("unsigned", 4), ("unsigned int", 4), ("int32_t", 4), ("uint32_t", 4), ("float", 4),
   ("long", 8), ("unsigned long", 8), ("long long", 8), ("unsigned long long", 8),
   ("int64_t", 8), ("uint64_t", 8), ("double", 8), ("size_t", 8), ("ssize_t", 8),
   ("intptr_t", 8), ("uintptr_t", 8), ("ptrdiff_t", 8)]

/-- Stands for a size that is not known. -/
def noSize : Int64 := -1

/-- The alignment of a type of a size. -/
def alignment (n : Int64) :
    Int64 := if 8 ≤ n then 8 else if 4 ≤ n then 4 else if 2 ≤ n then 2 else 1

/-- The next multiple of an alignment. -/
def roundUp (n align : Int64) : Int64 := if align ≤ 1 then n else (n + align - 1) / align * align

/-- A record being laid out. -/
structure Layout where
  size : Int64 := 0
  align : Int64 := 1
  deriving DecidableEq, Repr

/-- Adds a field of `n` bytes: behind the others, or beside them in a union. -/
def Layout.add (layout : Layout) (isUnion : Bool) (n : Int64) : Layout where
  size := if isUnion then (if layout.size < n then n else layout.size)
    else roundUp layout.size (alignment n) + n
  align := if layout.align < alignment n then alignment n else layout.align

/-- The size of a record whose fields are measured by `measure`, one after the other; the first
field without a size ends it. -/
def recordSize {m : Type → Type} [Monad m] (measure : Bytes → m Int64) (isUnion : Bool)
    (layout : Layout) : List Bytes → m Int64
  | [] => pure (roundUp layout.size layout.align)
  | ctype :: rest => do
    let n ← measure ctype
    if n < 0 then pure noSize else recordSize measure isUnion (layout.add isUnion n) rest

/-- What the size of a type is made of. -/
inductive Shape where
  | fixed (n : Int64)
  | array (elem : Bytes) (count : Int64)
  | record (isUnion : Bool) (fields : List Bytes)
  deriving DecidableEq, Repr

namespace Shape

/-- The size of a shape whose parts are measured by `measure`. -/
def size {m : Type → Type} [Monad m] (measure : Bytes → m Int64) : Shape → m Int64
  | fixed n => pure n
  | array elem count => do
    let n ← measure elem
    pure (if n < 0 then noSize else n * count)
  | record isUnion fields => recordSize measure isUnion {} fields

/-- The types that a size is made of. -/
def parts : Shape → List Bytes
  | fixed _ => []
  | array elem _ => [elem]
  | record _ fields => fields

end Shape

namespace Index

variable (ix : Index)

/-- The type of a field, as text. -/
def fieldType (f : FieldRecord) : Bytes := ix.typeText f.type .field

/-- The shape of the record with a tag. -/
def recordShape (tag : Bytes) : Shape :=
  match ix.record? tag with
  | none => .fixed noSize
  | some record => .record (record.kind == .union) (record.fields.map ix.fieldType)

/-- The shape of a type that is given by its name. -/
def baseShape (name : Bytes) : Shape :=
  match scalarSizes.lookup name with
  | some n => .fixed n
  | none =>
    if ix.enumTypeNames.contains name then .fixed 4
    else
      let r := ix.underlying name
      match r.kind with
      | .primitive | .stdlib => .fixed ((scalarSizes.lookup r.name).getD noSize)
      | .enum => .fixed 4
      | .pointer | .functionPointer => .fixed 8
      | .struct | .union => ix.recordShape r.name
      | _ => .fixed noSize

/-- The shape of a type. -/
def shape (ctype : Bytes) : Shape :=
  match CType.parse? ctype with
  | none => .fixed noSize
  | some c =>
    if 0 ≤ c.dim then .array ({ c with dim := -1 } : CType).text (Int64.ofInt c.dim)
    else if 0 < c.pointers then .fixed 8
    else ix.baseShape c.base

/-- The size of a type, looking into at most `depth` types inside each other. -/
def sizeWithin (ix : Index) : (depth : Nat) → Bytes → StateM Sizes Int64
  | 0, _ => pure noSize
  | depth + 1, ctype => do
    match (← get).lookup ctype with
    | some n => pure n
    | none =>
      modify ((ctype, noSize) :: ·)
      let n ← (ix.shape ctype).size (sizeWithin ix depth)
      modify ((ctype, n) :: ·)
      pure n

/-- How many types can stand inside each other.  A type is only looked into while it is not known,
and besides the type asked for these are the types of fields, each perhaps as an array. -/
def nesting : Nat := 2 * (ix.records.flatMap (·.fields)).length + 4

/-- The size of a type, negative if it is unknown. -/
def sizeOf (ctype : Bytes) : StateM Sizes Int64 := ix.sizeWithin ix.nesting ctype

end Index

end UiCodegen.Api
