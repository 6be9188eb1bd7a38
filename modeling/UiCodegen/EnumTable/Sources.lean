import UiCodegen.Api.Index
import UiCodegen.Document.Json.Decode
import UiCodegen.EnumTable.Basic

/-!
# Where constants come from

The table collects constants from three sources: supplementary values given by the user, the enums
of the API, and preprocessor definitions that are exported by name.  Of two constants with one name
the one from the earlier source is kept.
-/

namespace UiCodegen.EnumTable

open Api (Index)

/-- The definitions that are exported if no other list is given. -/
def defaultDefines : List Bytes :=
  ["LV_SIZE_CONTENT", "LV_GRID_CONTENT", "LV_GRID_TEMPLATE_LAST", "LV_COORD_MAX", "LV_COORD_MIN",
   "LV_RADIUS_CIRCLE", "LV_ANIM_REPEAT_INFINITE", "LV_DPI_DEF"]

/-- Strips parentheses around a text, and white space inside them, at most so many times. -/
def stripParens : (times : Nat) → Bytes → Bytes
  | 0, s => s
  | times + 1, s =>
    if Bytes.startsWith s "(" && Bytes.endsWith s ")" then
      stripParens times (Blank.trim ((s.drop 1).dropLast))
    else s

/-- Reads an integer in any C notation, with or without parentheses and suffix. -/
def integer? (s : Bytes) : Option Int64 :=
  let s := Blank.trim s
  let bare := stripParens s.length s
  (Integer.parse? .announced (Bytes.dropEndWhile Api.isIntegerSuffix bare)).map Int64.ofInt

def apiEntries (ix : Index) : List Entry :=
  ix.members.map fun m =>
    { name := m.name, value := m.value, hasValue := m.hasValue, expr := m.name
      enumType := m.enumType, origin := .api }

/-- The constant of an exported definition.  One that takes arguments is none; one that the API does
not describe is left to the C compiler. -/
def ofDefine? (ix : Index) (name : Bytes) : Option Entry :=
  let name := Blank.trim name
  let entry : Entry := { name, expr := name, enumType := "int", origin := .definition }
  if name.isEmpty then none
  else match ix.define? name with
    | none => some entry
    | some d =>
      if d.isFunctionLike then none
      else match integer? d.body with
        | some value => some { entry with value, hasValue := true }
        | none => some entry

def defineEntries (ix : Index) (names : List Bytes) : List Entry := names.filterMap (ofDefine? ix)

def ofSources (ix : Index) (defines : List Bytes := defaultDefines) (user : List Entry := [])
    (hash : Bytes → UInt32 := djb2) : EnumTable :=
  build (user ++ apiEntries ix ++ defineEntries ix defines) hash

/-! ## Supplementary values -/

/-- What is wrong with supplementary values. -/
inductive ValuesFault where
  | notObject (typeName : Bytes)
  | notInteger (name literal : Bytes)
  | emptyText (name : Bytes)
  | badType (name typeName : Bytes)
  deriving DecidableEq, Repr

def ValuesFault.message : ValuesFault → Bytes
  | .notObject typeName => "enum values must be an object, got " ++ typeName
  | .notInteger name literal => "value of " ++ name ++ " is not an integer: " ++ literal
  | .emptyText name => "value of " ++ name ++ " is empty"
  | .badType name typeName => "value of " ++ name ++ " must be a number or string, got " ++ typeName

/-- The constant of one value: a number, a C expression or a truth value. -/
def valueEntry (name enumType : Bytes) (v : Value) : Except ValuesFault Entry :=
  let entry : Entry := { name, enumType, origin := .user }
  match v with
  | .num literal =>
    match Integer.parse? .announced literal with
    | some n => .ok { entry with value := Int64.ofInt n, hasValue := true }
    | none => .error (.notInteger name literal)
  | .str text =>
    match integer? text with
    | some value => .ok { entry with value, hasValue := true }
    | none =>
      if (Blank.trim text).isEmpty then .error (.emptyText name) else .ok
        { entry with expr := text }
  | .bool b => .ok { entry with value := if b then 1 else 0, hasValue := true }
  | _ => .error (.badType name v.typeName)

/-- The constants of a document: values under names, or objects of values under the name of their
enum type. -/
def valuesOf (doc : Value) : Except ValuesFault (List Entry) :=
  match doc with
  | .obj fields => do
    let groups ← fields.mapM fun (name, v) =>
      match v with
      | .obj group => group.mapM fun (inner, v) => valueEntry inner name v
      | v => return [← valueEntry name "int" v]
    pure groups.flatten
  | v => .error (.notObject v.typeName)

end UiCodegen.EnumTable
