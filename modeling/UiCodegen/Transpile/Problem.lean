import UiCodegen.Api.Representable
import UiCodegen.Document.Form
import UiCodegen.Document.Pointer

/-!
# Problems of UI documents

What can be wrong with a UI document.  A violation of the schema ends the run.  A problem confined
to one node or attribute is reported and leaves a comment in the generated code, and the run goes
on.
-/

namespace UiCodegen.Transpile

/-- A violation of the schema. -/
inductive Violation where
  | documentType (found : Bytes)
  | nodeType (found : Bytes)
  | notString (key found : Bytes)
  | notObject (key found : Bytes)
  | missingId (kind : Bytes)
  | missingRoot (component : Bytes)
  | missingValues
  | missingBody
  | childrenType (found : Bytes)
  | emptyText (key : Bytes)
  | withType (found : Bytes)
  | withBlockType (found : Bytes)
  deriving DecidableEq, Repr

def Violation.message : Violation → Bytes
  | documentType found => "UI document must be an object or an array, got " ++ found
  | nodeType found => "node must be an object, got " ++ found
  | notString key found => Quoted.quote key ++ " must be a string, got " ++ found
  | notObject key found => Quoted.quote key ++ " must be an object, got " ++ found
  | missingId kind => kind ++ " requires an id starting with '@'"
  | missingRoot component => "component @" ++ component ++ " requires a \"root\" node"
  | missingValues => "context node requires a \"values\" object"
  | missingBody => "context node requires a \"for\" node"
  | childrenType found => "\"children\" must be an array, got " ++ found
  | emptyText key => Quoted.quote key ++ " must not be empty"
  | withType found => "\"with\" must be an object or an array, got " ++ found
  | withBlockType found => "with block must be an object, got " ++ found

/-- Why a function cannot be used. -/
inductive Uncallable where
  | filtered (name : Bytes)
  | unrepresentable (u : Api.Unrepresentable)
  deriving DecidableEq, Repr

def Uncallable.message : Uncallable → Bytes
  | filtered name => name ++ " is excluded by the function filter"
  | unrepresentable u => u.message

/-- A problem confined to one node or attribute. -/
inductive Problem where
  | redefined (component : Bytes)
  | undefinedComponent (component : Bytes)
  | badWidgetType (type : Bytes)
  | unknownWidgetType (type constructor : Bytes)
  | uncallableConstructor (constructor : Bytes) (why : Uncallable)
  | notConstructor (function : Bytes)
  | noChildren (type : Bytes)
  | uncallableAttribute (key : Bytes) (why : Uncallable)
  | unknownAttribute (key type : Bytes)
  | noFittingSetter (key value : Bytes)
  | takesNoValue (function value : Bytes)
  | gridNotArray (key found : Bytes)
  | unbound (name : Bytes) (visible : List Bytes)
  | nestedTooDeeply
  | badTarget (why : Form.Fault)
  | badValue (why : Form.Fault)
  | unknownReference (name : Bytes)
  | externalReference (name : Bytes)
  | targetNotPointer (function result : Bytes)
  | targetKind
  | returnsVoid (function : Bytes)
  | mismatch (what ctype function : Bytes)
  | referenceNeedsPointer (name ctype : Bytes)
  | unknownFunction (function : Bytes)
  | uncallableFunction (function : Bytes) (why : Uncallable)
  | argumentCount (function : Bytes) (expected found : Nat)
  | unknownIdentifier (text ctype : Bytes)
  | needsInteger (ctype literal : Bytes)
  | needsUnsigned (ctype literal : Bytes)
  | needsTruth (literal : Bytes)
  | needsColor (literal : Bytes)
  | needsNull (ctype literal : Bytes)
  | fieldCount (ctype : Bytes) (expected found : Nat)
  | unknownField (ctype key : Bytes)
  deriving DecidableEq, Repr

def Problem.message : Problem → Bytes
  | redefined component => "component @" ++ component ++ " redefined, replacing earlier definition"
  | undefinedComponent component => "use-view of undefined component @" ++ component
  | badWidgetType type => "invalid widget type " ++ Quoted.quote type
  | unknownWidgetType type constructor =>
    "unknown widget type " ++ Quoted.quote type ++ ": no " ++ constructor ++ " in the API"
  | uncallableConstructor constructor why =>
    "constructor " ++ constructor ++ " cannot be called: " ++ why.message
  | notConstructor function => function ++ " is not a constructor of the form T *(lv_obj_t *parent)"
  | noChildren type => type ++ " entities cannot have children"
  | uncallableAttribute key why =>
      "attribute " ++ Quoted.quote key ++ " cannot be set: " ++ why.message
  | unknownAttribute key type => "unknown attribute " ++ Quoted.quote key ++ " for " ++ type
  | noFittingSetter key value => "no setter for " ++ Quoted.quote key ++ " accepts " ++ value
  | takesNoValue function value => function ++ " takes no value; use true or null, got " ++ value
  | gridNotArray key found => "grid " ++ Quoted.quote key ++ " must be an array, got " ++ found
  | unbound name visible =>
    "unbound context variable $" ++ name ++
    Bytes.onlyIf (!visible.isEmpty) (" (visible: " ++ Bytes.join ", " visible ++ ")")
  | nestedTooDeeply => "context variables nested too deeply"
  | badTarget why => "invalid with target: " ++ why.message
  | badValue why => "invalid value: " ++ why.message
  | unknownReference name => "unknown reference @" ++ name
  | externalReference name => "unknown reference @" ++ name ++ ", looked up in the runtime registry"
  | targetNotPointer function result =>
    "with target " ++ function ++ " returns " ++ result ++ ", not a pointer"
  | targetKind => "with target must be a reference, a context variable or a call"
  | returnsVoid function => function ++ " returns void and cannot be used as a value"
  | mismatch what ctype function =>
    what ++ " cannot be passed as " ++ ctype ++ Bytes.onlyIf (!function.isEmpty)
      (" to " ++ function)
  | referenceNeedsPointer name ctype =>
    "reference @" ++ name ++ " needs a pointer parameter, got " ++ ctype
  | unknownFunction function => "unknown function " ++ Quoted.quote function ++ " in call"
  | uncallableFunction function why =>
      "function " ++ function ++ " cannot be called: " ++ why.message
  | argumentCount function expected found =>
    function ++ " takes " ++ Bytes.ofNat expected ++ " arguments, got " ++ Bytes.ofNat found
  | unknownIdentifier text ctype => "unknown identifier " ++ Quoted.quote text ++ " for " ++ ctype
  | needsInteger ctype literal => ctype ++ " needs an integer, got " ++ literal
  | needsUnsigned ctype literal => ctype ++ " is unsigned, got " ++ literal
  | needsTruth literal => "bool needs 0 or 1, got " ++ literal
  | needsColor literal => "color needs a non-negative integer, got " ++ literal
  | needsNull ctype literal => "only 0 may be passed as pointer " ++ ctype ++ ", got " ++ literal
  | fieldCount ctype expected found =>
    ctype ++ " has " ++ Bytes.ofNat expected ++ " fields, got " ++ Bytes.ofNat found ++ " values"
  | unknownField ctype key => ctype ++ " has no field " ++ Quoted.quote key

/-- What ends the processing of a node or of the whole document. -/
inductive Fault where
  | violation (v : Violation) (at_ : Pointer)
  | problem (p : Problem) (at_ : Pointer)
  deriving DecidableEq, Repr

/-- The wording of a fault, without the file. -/
def Fault.message : Fault → Bytes
  | violation v at_ => v.message ++ " (at " ++ at_.display ++ ")"
  | problem p at_ => p.message ++ " (at " ++ at_.display ++ ")"

/-- Why a document has no output. -/
inductive Failure where
  | fault (fault : Fault)
  /-- The run has no end: components are instantiated inside each other for ever. -/
  | endless
  deriving DecidableEq, Repr

/-- The wording of a failure, without the file. -/
def Failure.message : Failure → Bytes
  | fault f => f.message
  | endless => "components are instantiated without end"

/-- The wording for a run that was given no API. -/
def missingIndex : Bytes := "gen: an API index is required"

/-- A problem that was reported. -/
structure Diagnostic where
  pointer : Bytes
  message : Bytes
  deriving DecidableEq, Repr

def Diagnostic.text (d : Diagnostic) : Bytes := d.message ++ " (at " ++ d.pointer ++ ")"

end UiCodegen.Transpile
