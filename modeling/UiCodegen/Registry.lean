import UiCodegen.Log

/-!
# Registered entities

The objects and styles that a document creates, under the names by which it can refer to them: `@id`
for ids, and paths of names joined by `:`.  A later registration of a name replaces the earlier one
and keeps its position in the listing.
-/

namespace UiCodegen

/-- An object or style of the generated code. -/
structure Entity where
  cname : Bytes
  ctype : Bytes
  /-- Whether the variable is a pointer; styles are not. -/
  isPointer : Bool
  nodeType : Bytes
  setterPrefix : Bytes
  deriving DecidableEq, Repr, Inhabited

def Entity.expr (e : Entity) : Bytes := if e.isPointer then e.cname else "&" ++ e.cname

/-- The C type of `Entity.expr`. -/
def Entity.pointerType (e : Entity) : Bytes := if e.isPointer then e.ctype else e.ctype ++ " *"

/-- The entities by name, in order of first registration. -/
structure Registry where
  entries : List (Bytes × Entity) := []
  deriving DecidableEq, Repr, Inhabited

namespace Registry

variable (r : Registry)

def joinPath (path name : Bytes) : Bytes := if path.isEmpty then name else path ++ ":" ++ name

/-- The entity registered under exactly this name. -/
def get? (key : Bytes) : Option Entity := r.entries.lookup key

/-- Puts an entity under a name, in place of an earlier one. -/
def insert (key : Bytes) (e : Entity) : List (Bytes × Entity) → List (Bytes × Entity)
  | [] => [(key, e)]
  | (k, old) :: rest => if k == key then (k, e) :: rest else (k, old) :: insert key e rest

/-- Registers an entity.  Replacing an earlier one is reported. -/
def register (key : Bytes) (e : Entity) : Registry × List Log.Record :=
  let warnings : List Log.Record :=
    match r.get? key with
    | none => []
    | some previous =>
      [{ level := .warn
         message := "duplicate registration, replacing earlier entity"
         attributes := [("name", key), ("previous", previous.cname), ("entity", e.cname)] }]
  ({ entries := insert key e r.entries }, warnings)

/-- The entity a reference stands for: an id first, then the name below the current path, then the
name as a whole path. -/
def resolve? (name path : Bytes) : Option Entity :=
  let name := Bytes.trimHead name "@"
  r.get? ("@" ++ name)
    <|> (if path.isEmpty then none else r.get? (joinPath path name))
    <|> r.get? name

def keys : List Bytes := r.entries.map (·.1)

def sortedKeys : List Bytes := r.keys.mergeSort Bytes.le

def count : Nat := r.entries.length

end Registry

end UiCodegen
