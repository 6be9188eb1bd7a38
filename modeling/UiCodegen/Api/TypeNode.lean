import UiCodegen.Text.Blank
import UiCodegen.Text.Integer

/-!
# Type chains

An API description spells a C type as a chain of nodes: wrappers for the place of use, pointers and
arrays around an inner node, and at the end a named type or a function pointer.  A node's kind is a
word of the description; words without a meaning here are kept as they are, since they are shown
again when a type is printed.
-/

namespace UiCodegen.Api

/-- The kind of a node or record. -/
inductive Kind where
  | primitive
  | stdlib
  | library
  | pointer
  | array
  | typedef
  | enum
  | struct
  | union
  | functionPointer
  /-- The `...` of a parameter list. -/
  | special
  | returnType
  | argument
  | field
  | forward
  | unknown
  | other (word : Bytes)
  deriving DecidableEq, Repr

namespace Kind

/-- The words of the kinds. -/
def named : List (Kind × Bytes) :=
  [(primitive, "primitive_type"), (stdlib, "stdlib_type"), (library, "lvgl_type"),
   (pointer, "pointer"), (array, "array"), (typedef, "typedef"), (enum, "enum"),
   (struct, "struct"), (union, "union"), (functionPointer, "function_pointer"),
   (special, "special_type"), (returnType, "ret_type"), (argument, "arg"), (field, "field"),
   (forward, "forward_decl"), (unknown, "unknown_type")]

/-- The word of a kind. -/
def word : Kind → Bytes
  | other word => word
  | kind => (named.lookup kind).getD []

/-- The kind of a word. -/
def ofWord (word : Bytes) : Kind :=
  match named.find? (·.2 == word) with
  | some (kind, _) => kind
  | none => other word

/-- The kind of a node without one. -/
def absent : Kind := other []

end Kind

/-- One node of a type chain. -/
structure TypeNode where
  kind : Kind
  name : Bytes
  quals : List Bytes
  /-- What a wrapper, pointer, array or typedef is made of, or what a function pointer returns. -/
  inner : Option TypeNode
  /-- The parameters of a function pointer. -/
  args : List (Option TypeNode)
  /-- The size of an array, if it is known. -/
  dim : Option Nat
  deriving Repr

namespace TypeNode

/-- A node without fields. -/
def empty : TypeNode := mk Kind.absent [] [] none [] none

instance : Inhabited TypeNode := ⟨empty⟩

/-- A node around another. -/
def wrap (kind : Kind) (inner : TypeNode) (dim : Option Nat := none) : TypeNode :=
  mk kind [] [] (some inner) [] dim

/-- Reads the text of an array size.  Quotes around it are dropped; a symbolic or negative size is
unknown. -/
def readDim (raw : Bytes) : Option Nat :=
  match Integer.parse? (.fixed 10) (Bytes.trimBoth (· == 34) (Blank.trim raw)) with
  | some (.ofNat n) => some n
  | _ => none

end TypeNode

end UiCodegen.Api
