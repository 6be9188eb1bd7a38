import UiCodegen.Document.Value
import UiCodegen.Text.Blank
import UiCodegen.Text.Integer

/-!
# Forms of values

A value of a document is read as one form: a colour, a reference, a context variable, a call and so
on.  Strings are told apart by their first and last octets, and a sign at both ends escapes the
form.
-/

namespace UiCodegen

/-- What a document value stands for. -/
inductive Form where
  /-- `#rgb`, `#rrggbb` or `#aarrggbb`, without the alpha part. -/
  | color (rgb : Nat)
  /-- `@name`: a registered entity. -/
  | ref (name : Bytes)
  /-- `$name`: a binding of the enclosing context. -/
  | contextVar (name : Bytes)
  /-- `!text`: a string that lives as long as the program. -/
  | staticText (text : Bytes)
  /-- `N%`: a share of the parent. -/
  | percent (n : Int)
  /-- A bare string: the name of a constant if it resolves, plain text otherwise. -/
  | ident (text : Bytes)
  | literal (text : Bytes)
  | number (literal : Bytes)
  | bool (v : Bool)
  | array (items : List Value)
  | call (fn : Bytes) (args : List Value)
  | struct (fields : Fields)
  | null
  deriving Repr, DecidableEq

namespace Form

def hexValue? (s : Bytes) : Option Nat := Integer.parseUnsigned? (.fixed 16) s

/-- The colour of `#rgb`, `#rrggbb` or `#aarrggbb`; the three-digit form doubles each digit. -/
def hexColor? (s : Bytes) : Option Nat :=
  match s with
  | 35 :: digits =>
    match digits with
    | [r, g, b] => hexValue? [r, r, g, g, b, b]
    | _ =>
      if digits.length == 6 then hexValue? digits
      else if digits.length == 8 then hexValue? (digits.drop 2)
      else none
  | _ => none

def ofString (s : Bytes) : Form :=
  match s with
  | [] => .ident []
  | sign :: name =>
    if (sign == 64 || sign == 36 || sign == 33) && !name.isEmpty then
      if s.getLast? == some sign then .literal s.dropLast
      else if sign == 64 then .ref name
      else if sign == 36 then .contextVar name
      else .staticText name
    else if sign == 35 then
      match hexColor? s with
      | some rgb => .color rgb
      | none => .ident s
    else match Bytes.dropTail? s "%%" with
      | some body =>
        match Integer.parse? (.fixed 10) body with
        | some _ => .literal s.dropLast
        | none => .ident s
      | none =>
        match Bytes.dropTail? s "%" with
        | some body =>
          match Integer.parse? (.fixed 10) (Blank.trim body) with
          | some n => .percent n
          | none => .ident s
        | none => .ident s

/-- Why a value has no form. -/
inductive Fault where
  | callName (found : Value)
  /-- The arguments of a call are no array. -/
  | callArgs (fn : Bytes) (found : Value)
  deriving DecidableEq, Repr

def Fault.message : Fault → Bytes
  | .callName found => "\"call\" must be a non-empty string, got " ++ found.typeName
  | .callArgs fn found => "\"args\" of call " ++ fn ++ " must be an array, got " ++ found.typeName

/-- The form of an object: a call if it has the key `call`. -/
def ofFields (fields : Fields) : Except Fault Form :=
  match fields.get? "call" with
  | none => .ok (.struct fields)
  | some (.str []) => .error (.callName (.str []))
  | some (.str fn) =>
    match fields.get? "args" with
    | none => .ok (.call fn [])
    | some .null => .ok (.call fn [])
    | some (.arr args) => .ok (.call fn args)
    | some found => .error (.callArgs fn found)
  | some found => .error (.callName found)

def ofValue : Value → Except Fault Form
  | .null => .ok .null
  | .bool v => .ok (.bool v)
  | .num lit => .ok (.number lit)
  | .str text => .ok (ofString text)
  | .arr items => .ok (.array items)
  | .obj fields => ofFields fields

end Form

end UiCodegen
