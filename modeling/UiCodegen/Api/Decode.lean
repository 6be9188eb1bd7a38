import UiCodegen.Api.Description
import UiCodegen.Api.Reading.Record

/-!
# Reading API descriptions

An API description is an object of lists of records.  Unknown keys are passed over, `null` leaves a
field as it was, and a value of the wrong type makes the description unreadable.  What follows the
first value is not looked at.

A type chain is first cut out of its record as it is written, and then read on its own; nothing but
white space may follow it there.
-/

namespace UiCodegen.Api

open Reading
open Document.Json (isSpace)

/-! ## Type chains -/

namespace Reading

/-- A type chain, cut out and read by `node`; `null` is no type. -/
def chainWith {n : Nat} (layer : Layer) (depth : Nat)
    (node : (t : Bytes) → t.length < n → Option TypeNode) : Reader n (Option TypeNode) :=
    fun w hw => do
  let ⟨w', h⟩ := w.skipSpace
  let ⟨c, rest, h'⟩ ← w'.next?
  if c == 110 then nullRest? none rest (Window.lt_trans_le h' h)
  else
    let ⟨⟨t, ht⟩, rest, h''⟩ ← written? layer depth w'
    let v ← node t (Window.length_lt_of_le ht h hw)
    some ⟨some v, rest, Window.lt_trans_le h'' h⟩

/-- The fields of a node, whose inner nodes are read by `node`. -/
def nodeFields {n : Nat} (node : (t : Bytes) → t.length < n → Option TypeNode) :
    Fields n TypeNode :=
  [("args", fun t => (list (fun _ => chainWith .types 2 node) none t.args).map fun args =>
     { t with args }),
   ("dim", fun t => (source .types 1).map fun raw => { t with dim := TypeNode.readDim raw }),
   ("json_type", fun t => (text .types t.kind.word).map fun word =>
     { t with kind := Kind.ofWord word }),
   ("name", fun t => (text .types []).map fun name => { t with name }),
   ("quals", fun t => (list (text .types) [] t.quals).map fun quals => { t with quals }),
   ("type", fun t => (chainWith .types 1 node).map fun inner => { t with inner })]

/-- The node that a whole text describes; `null` is the node without fields. -/
def node? (s : Bytes) : Option TypeNode := do
  let ⟨node, rest, _⟩ ←
    recordWithin .types 1 (nodeFields fun t (_ : t.length < s.length) => node? t) TypeNode.empty
      (.whole s) (Nat.le_refl _)
  if rest.seen.all isSpace then some node else none
termination_by s.length

/-! ## Records -/

variable {n : Nat}

/-- A type chain in a record. -/
def chain (depth : Nat) : Reader n (Option TypeNode) := chainWith .records depth fun t _ => node? t

/-- The fields of a function. -/
def functionFields : Fields n FunctionRecord :=
  [("args", fun f => (list (fun _ => chain 4) none f.args).map fun args => { f with args }),
   ("docstring", fun f => (text .records f.doc).map fun doc => { f with doc }),
   ("name", fun f => (text .records f.name).map fun name => { f with name }),
   ("type", fun f => (chain 3).map fun type => { f with type })]

/-- The fields of an enum member. -/
def memberFields : Fields n MemberRecord :=
  [("name", fun m => (text .records m.name).map fun name => { m with name }),
   ("value", fun m => (source .records 5).map fun value => { m with value })]

/-- The fields of an enum. -/
def enumFields : Fields n EnumRecord :=
  [("members", fun e => (list (record .records 5 memberFields) {} e.members).map fun members =>
      { e with members }),
   ("name", fun e => (text .records e.name).map fun name => { e with name }),
   ("type", fun e => (chain 3).map fun type => { e with type })]

/-- The fields of a field of a record. -/
def fieldFields : Fields n FieldRecord :=
  [("bitsize", fun f => (source .records 5).map fun bitWidth => { f with bitWidth }),
   ("name", fun f => (text .records f.name).map fun name => { f with name }),
   ("type", fun f => (chain 5).map fun type => { f with type })]

/-- The fields of a struct or union. -/
def structFields : Fields n StructRecord :=
  [("fields", fun s => (list (record .records 5 fieldFields) {} s.fields).map fun fields =>
      { s with fields }),
   ("json_type", fun s => (text .records s.kind.word).map fun word =>
     { s with kind := Kind.ofWord word }),
   ("name", fun s => (text .records s.name).map fun name => { s with name })]

/-- The fields of a typedef. -/
def typedefFields : Fields n TypedefRecord :=
  [("name", fun t => (text .records t.name).map fun name => { t with name }),
   ("type", fun t => (chain 3).map fun type => { t with type })]

/-- The fields of a preprocessor definition; `null` parameters are no parameter list. -/
def defineFields : Fields n DefineRecord :=
  [("initializer", fun d => (text .records d.body).map fun body => { d with body }),
   ("name", fun d => (text .records d.name).map fun name => { d with name }),
   ("params", fun d => (listOrNull (text .records) [] (d.params.getD [])).map fun params =>
      { d with params })]

/-- The lists of a description; structs stand under two keys. -/
structure Lists where
  description : Description := {}
  structures : List StructRecord := []

/-- The lists of a description. -/
def descriptionFields : Fields n Lists :=
  [("enums", fun d => (list (record .records 3 enumFields) {} d.description.enums).map fun enums =>
      { d with description.enums := enums }),
   ("functions", fun d =>
      (list (record .records 3 functionFields) {} d.description.functions).map fun functions =>
        { d with description.functions := functions }),
   ("macros", fun d => (list (record .records 3 defineFields) {} d.description.defines).map
     fun defines =>
      { d with description.defines := defines }),
   ("structs", fun d => (list (record .records 3 structFields) {} d.description.structs).map
     fun structs =>
      { d with description.structs := structs }),
   ("structures", fun d => (list (record .records 3 structFields) {} d.structures).map
     fun structures =>
      { d with structures }),
   ("typedefs", fun d =>
      (list (record .records 3 typedefFields) {} d.description.typedefs).map fun typedefs =>
        { d with description.typedefs := typedefs }),
   ("unions", fun d => (list (record .records 3 structFields) {} d.description.unions).map
     fun unions =>
      { d with description.unions := unions })]

/-- A text up to the octet zero, which ends it. -/
def untilZero (s : Bytes) : Bytes := s.takeWhile (· != 0)

/-- A description without white space at its front, and without one separator behind that. -/
def skipLead (w : Window) : Window :=
  let w := w.skipSpace.1
  if w.inView? == some 44 || w.inView? == some 58 then w.step else w

end Reading

/-- Reads an API description.  Structs may stand under two keys; those under `structs` come first.
-/
def Description.decode? (s : Bytes) : Option Description := do
  let ⟨lists, _, _⟩ ← recordWithin .records 1 descriptionFields {} (skipLead (.start s))
    (Nat.le_refl _)
  return { lists.description with structs := lists.description.structs ++ lists.structures }

/-- Reads a single type chain; `null` is the node without fields. -/
def TypeNode.decode? (s : Bytes) : Option TypeNode := do
  let ⟨⟨t, _⟩, rest, _⟩ ← written? .types 0 (.whole (untilZero s))
  if rest.seen.all isSpace then node? t else none

end UiCodegen.Api
