import UiCodegen.Api.TypeNode
import UiCodegen.Text.Quoted

/-!
# C types in canonical form

A C type is a base name under optional `const` and `volatile`, a number of pointer levels, and for
fields an optional array size.  `CType.text` prints the canonical string that all tables are keyed
by and `CType.parse` reads it back, also with loose spacing.
-/

namespace UiCodegen.Api

/-- A C type. -/
structure CType where
  base : Bytes
  const : Bool := false
  volatile : Bool := false
  pointers : Nat := 0
  /-- The array size; a negative one stands for a type that is no array. -/
  dim : Int := -1
  deriving DecidableEq, Repr, Inhabited

namespace CType

/-- The canonical string, such as `const lv_coord_t *`. -/
def text (c : CType) : Bytes :=
  Bytes.onlyIf c.const "const " ++ Bytes.onlyIf c.volatile "volatile " ++ c.base ++
  Bytes.onlyIf (0 < c.pointers) (32 :: List.replicate c.pointers 42) ++
  Bytes.onlyIf (0 ≤ c.dim) ("[" ++ Bytes.ofInt c.dim ++ "]")

/-- The type with one pointer level less, and no array. -/
def elem (c : CType) : CType := { c with pointers := c.pointers - 1, dim := -1 }

/-- Whether a type is a pointer. -/
def isPointer (c : CType) : Bool := 0 < c.pointers

/-- The type without `const` and `volatile`. -/
def unqualified (c : CType) : CType := { c with const := false, volatile := false }

/-- The words of primitive types. -/
def primitiveWords : List Bytes :=
  ["void", "char", "short", "int", "long", "float", "double", "signed", "unsigned", "bool", "_Bool"]

/-- Whether a name consists of words of C's own type names.  A name of white space only does; the
empty name does not. -/
def isPrimitiveName (name : Bytes) : Bool :=
  !name.isEmpty && (Blank.words name).all primitiveWords.contains

/-- Why a text is no C type. -/
inductive Fault where
  | empty
  | malformedArray (text : Bytes)
  | badDimension (text : Bytes)
  | qualifiedPointer (text : Bytes)
  | missingBase (text : Bytes)
  | unexpectedTokens (text : Bytes)
  deriving DecidableEq, Repr

/-- The text of a fault. -/
def Fault.message : Fault → Bytes
  | empty => "empty C type"
  | malformedArray s => "malformed array type " ++ Quoted.quote s
  | badDimension s => "bad array dimension in " ++ Quoted.quote s
  | qualifiedPointer s => "qualified pointer levels are not canonical: " ++ Quoted.quote s
  | missingBase s => "missing base type in " ++ Quoted.quote s
  | unexpectedTokens s => "unexpected tokens in C type " ++ Quoted.quote s

/-- The array part of a trimmed type: the levels it adds, the size, and the text in front.  `[]` is
a pointer level. -/
def parseArray (whole s : Bytes) : Except Fault (Nat × Int × Bytes) :=
  match Bytes.cut? 91 s with
  | none => .ok (0, -1, s)
  | some (front, behind) =>
    match Bytes.dropTail? behind "]" with
    | none => .error (.malformedArray whole)
    | some size =>
      let size := Blank.trim size
      if size.isEmpty then .ok (1, -1, Blank.trim front)
      else match Integer.parse? (.fixed 10) size with
        | none => .error (.badDimension whole)
        | some n => .ok (0, n, Blank.trim front)

/-- Counts and drops the pointer levels at the end of a trimmed text, given last octet first. -/
def dropStars (count skip : Nat) : Bytes → Nat × Bytes
  | [] => (count, [])
  | b :: rest =>
    match skip with
    | skip + 1 => dropStars count skip rest
    | 0 =>
      if b == 42 then dropStars (count + 1) 0 rest
      else match (if count == 0 then 0 else Blank.trailing (b :: rest)) with
        | 0 => (count, b :: rest)
        | n + 1 => dropStars count n rest

/-- Reads the words of a type into it. -/
def parseWords (whole : Bytes) (c : CType) (words : List Bytes) : List Bytes → Except Fault CType
  | [] =>
    match words.reverse with
    | [] => .error (.missingBase whole)
    | first :: rest =>
      let base := Bytes.join " " (first :: rest)
      if !rest.isEmpty && !isPrimitiveName base && first != "struct" && first != "union" &&
          first != "enum" then
        .error (.unexpectedTokens whole)
      else .ok { c with base }
  | word :: more =>
    if word == "const" then parseWords whole { c with const := true } words more
    else if word == "volatile" then parseWords whole { c with volatile := true } words more
    else if word == "*" then .error (.qualifiedPointer whole)
    else parseWords whole c (word :: words) more

/-- Reads a type. -/
def parse (s : Bytes) : Except Fault CType := do
  let trimmed := Blank.trim s
  if trimmed.isEmpty then throw .empty
  let (level, dim, front) ← parseArray s trimmed
  let (stars, reversed) := dropStars 0 0 front.reverse
  parseWords s { base := [], pointers := level + stars, dim } [] (Blank.words reversed.reverse)

/-- The type of a text, if it is one. -/
def parse? (s : Bytes) : Option CType := (parse s).toOption

/-- A node with pointers around it. -/
def wrapPointers (node : TypeNode) : Nat → TypeNode
  | 0 => node
  | n + 1 => .wrap .pointer (wrapPointers node n)

/-- The kind of a type, by its name. -/
def baseKind (base : Bytes) : Kind :=
  if isPrimitiveName base then .primitive
  else if Bytes.endsWith base "_t" && !Bytes.startsWith base "lv_" && !Bytes.startsWith
    base "_lv_" then
    .stdlib
  else .library

/-- The chain that spells a type. -/
def toNode (c : CType) : TypeNode :=
  let quals := ([(c.const, "const"), (c.volatile, "volatile")].filter (·.1)).map
    fun (_, word) => Bytes.ofString word
  let node := wrapPointers (.mk (baseKind c.base) c.base quals none [] none) c.pointers
  if 0 ≤ c.dim then .wrap .array node (some c.dim.toNat) else node

end CType

end UiCodegen.Api
