import UiCodegen.Api.CType
import UiCodegen.Api.Description

/-!
# The index of an API

Lookup by name over the records of a description.  Records without a name are left out.  Where a
name is declared more than once, listing shows the first declaration and lookup the last; a tag is
printed as the first typedef that names it.
-/

namespace UiCodegen.Api

/-- Where a type stands; arrays keep their size only in fields. -/
inductive Position where
  | argument | result | field
  deriving DecidableEq, Repr

/-- A parameter of a function. -/
structure Param where
  name : Bytes
  ctype : Bytes
  chain : Option TypeNode
  deriving Repr, Inhabited

/-- A function with its types resolved. -/
structure FunctionInfo where
  name : Bytes
  result : Bytes
  resultChain : Option TypeNode
  params : List Param
  variadic : Bool
  doc : Bytes
  deriving Repr, Inhabited

/-- The number of parameters. -/
def FunctionInfo.arity (f : FunctionInfo) : Nat := f.params.length

/-- A member of an enum with the name of its type. -/
structure MemberInfo where
  name : Bytes
  value : Int64
  hasValue : Bool
  enumType : Bytes
  deriving DecidableEq, Repr, Inhabited

/-- The records of a description by name. -/
structure Index where
  description : Description := {}
  typedefs : List TypedefRecord := []
  aliases : List (Bytes × Bytes) := []
  /-- Structs and unions, each with its kind. -/
  records : List StructRecord := []
  enumNames : List Bytes := []
  enumTypeNames : List Bytes := []
  defines : List DefineRecord := []
  declaredMembers : List MemberInfo := []
  declaredFunctions : List FunctionInfo := []
  /-- The first declaration of each enum member. -/
  members : List MemberInfo := []
  /-- The first declaration of each function. -/
  functions : List FunctionInfo := []

/-- The last entry with a name. -/
def lastNamed? {α : Type} (nameOf : α → Bytes) (name : Bytes) (xs : List α) : Option α :=
  xs.foldl (fun found x => if nameOf x == name then some x else found) none

theorem lastNamed?_eq_find? {α : Type} (nameOf : α → Bytes) (name : Bytes) (xs : List α) :
    lastNamed? nameOf name xs = xs.reverse.find? (nameOf · == name) := by
  rw [lastNamed?, List.foldl_eq_foldr_reverse]
  induction xs.reverse with
  | nil => rfl
  | cons x rest ih =>
    rw [List.foldr_cons, List.find?_cons, ih]
    cases nameOf x == name <;> rfl

/-- The first entry of each name. -/
def firstOfEachName {α : Type} (nameOf : α → Bytes) (xs : List α) : List α :=
  (xs.foldl (fun kept x =>
    if kept.any fun y => nameOf y == nameOf x then kept else x :: kept) []).reverse

/-- The base name of the type of `...`. -/
def variadicName : Bytes := "..."

/-- How many links of a type chain, or of a chain of typedefs, are followed. -/
def chainLimit : Nat := 16

namespace Index

variable (ix : Index)

/-- The last function with a name. -/
def function? (name : Bytes) : Option FunctionInfo :=
  lastNamed? FunctionInfo.name name ix.declaredFunctions

/-- The last enum member with a name. -/
def member? (name : Bytes) : Option MemberInfo :=
  lastNamed? MemberInfo.name name ix.declaredMembers

/-- The last macro with a name. -/
def define? (name : Bytes) : Option DefineRecord :=
  lastNamed? DefineRecord.name name ix.defines

/-- The last typedef with a name. -/
def typedef? (name : Bytes) : Option TypedefRecord :=
  lastNamed? TypedefRecord.name name ix.typedefs

/-- The last struct or union with a tag. -/
def record? (tag : Bytes) : Option StructRecord :=
  lastNamed? StructRecord.name tag ix.records

/-- The function that makes a widget. -/
def widgetConstructor? (widget : Bytes) : Option FunctionInfo :=
  ix.function? ("lv_" ++ widget ++ "_create")

/-! ## Canonical types -/

/-- The name that a tag, typedef or other type name is printed by. -/
def canonicalName (name : Bytes) : Bytes :=
  if (ix.typedef? name).isSome then name else (ix.aliases.lookup name).getD name

/-- Puts the qualifiers of a node on a type that is no pointer. -/
def qualify (c : CType) (node : TypeNode) : CType :=
  if 0 < c.pointers then c
  else
    { c with
      const := c.const || node.quals.contains "const"
      volatile := c.volatile || node.quals.contains "volatile" }

/-- The canonical type of a chain of which `depth` more links are followed; beyond them it is
`void`. -/
def resolveWithin (ix : Index) (pos : Position) : (depth : Nat) → Option TypeNode → CType
  | _, none => { base := "void" }
  | 0, _ => { base := "void" }
  | depth + 1, some node =>
    let inner := resolveWithin ix pos depth
    let named : CType := { base := ix.canonicalName node.name }
    match node.kind with
    | .returnType | .argument | .field => qualify (inner node.inner) node
    | .pointer =>
      let c := inner node.inner
      { c with dim := -1, pointers := c.pointers + 1 }
    | .array =>
      let c := inner node.inner
      match node.dim with
      | some size =>
        if pos == .field && c.dim < 0 then { c with dim := size }
        else { c with dim := -1, pointers := c.pointers + 1 }
      | none => { c with dim := -1, pointers := c.pointers + 1 }
    | .functionPointer => { base := "void", pointers := 1 }
    | .special => { base := variadicName }
    | .primitive | .stdlib => qualify { base := node.name } node
    | .typedef =>
      if node.name.isEmpty then qualify (inner node.inner) node else qualify named node
    | _ =>
      if !node.name.isEmpty then qualify named node
      else if node.inner.isSome then qualify (inner node.inner) node
      else { base := "int" }

/-- The canonical type of a chain.  Qualifiers of a type that is passed by value take no part in a
function type and are dropped. -/
def resolve (node : Option TypeNode) (pos : Position) : CType :=
  let c := ix.resolveWithin pos (chainLimit + 1) node
  if c.pointers == 0 && c.dim < 0 then c.unqualified else c

/-- The text of the type that a chain spells. -/
def typeText (node : Option TypeNode) (pos : Position) : Bytes :=
  (ix.resolve node pos).text

/-! ## Building -/

/-- The tag that a typedef gives its name to, if it names one. -/
def aliasOf (t : TypedefRecord) : Option (Bytes × Bytes) :=
  t.type.bind fun node =>
    if node.name.isEmpty || node.name == t.name then none
    else match node.kind with
      | .library | .struct | .union | .enum | .forward => some (node.name, t.name)
      | _ => none

/-- The name of an enum's type; `int` if it has none. -/
def enumTypeName (e : EnumRecord) : Bytes :=
  if !e.name.isEmpty then ix.canonicalName e.name
  else match e.type with
    | some node => if node.name.isEmpty then "int" else ix.canonicalName node.name
    | none => "int"

/-- The names that an enum is known by. -/
def enumNamesOf (e : EnumRecord) : List Bytes :=
  let typeName := ix.enumTypeName e
  (if e.name.isEmpty then [] else [e.name]) ++
  (if typeName.isEmpty || CType.isPrimitiveName typeName then [] else [typeName])

/-- The members of an enum. -/
def membersOf (e : EnumRecord) : List MemberInfo :=
  (e.members.filter (!·.name.isEmpty)).map fun m =>
    { name := m.name, value := m.intValue?.getD 0, hasValue := m.intValue?.isSome,
      enumType := ix.enumTypeName e }

/-- The parameter that argument number `i` of `count` declares; `...` and the `void` of an empty
list declare none. -/
def paramOf? (count i : Nat) (arg : Option TypeNode) : Option Param :=
  let c := ix.resolve arg .argument
  if c.base == variadicName then none
  else if c.base == "void" && c.pointers == 0 && count == 1 then none
  else
    let name := (arg.map TypeNode.name).getD []
    some {
      name := if name.isEmpty then "arg" ++ Bytes.ofNat i else name
      ctype := c.text, chain := arg }

/-- A function with the texts of its types. -/
def functionOf (f : FunctionRecord) : FunctionInfo where
  name := f.name
  result := ix.typeText f.type .result
  resultChain := f.type
  params := (f.args.zipIdx.map fun (arg, i) => ix.paramOf? f.args.length i arg).filterMap id
  variadic := f.args.any fun arg => (ix.resolve arg .argument).base == variadicName
  doc := f.doc

/-- The index without members and functions. -/
def typesOf (d : Description) : Index :=
  let typedefs := d.typedefs.filter (!·.name.isEmpty)
  let structs := d.structs.map fun s => if s.kind == Kind.absent then { s with kind := .struct }
    else s
  let unions := d.unions.map fun u => { u with kind := .union }
  { description := d, typedefs
    aliases := typedefs.filterMap aliasOf
    records := (structs ++ unions).filter (!·.name.isEmpty)
    enumNames := (d.enums.map (·.name)).filter (!·.isEmpty)
    defines := d.defines.filter (!·.name.isEmpty) }

/-- The index of a description. -/
def ofDescription (d : Description) : Index :=
  let types := typesOf d
  let declaredMembers := d.enums.flatMap types.membersOf
  let declaredFunctions := (d.functions.filter (!·.name.isEmpty)).map types.functionOf
  { types with
    enumTypeNames := d.enums.flatMap types.enumNamesOf
    declaredMembers, declaredFunctions
    members := firstOfEachName MemberInfo.name declaredMembers
    functions := firstOfEachName FunctionInfo.name declaredFunctions }

end Index

end UiCodegen.Api
