import UiCodegen.Document.Json.Token
import UiCodegen.Document.Value

/-!
# Writing JSON documents

The compact text of a value: no white space, pairs in order, numbers as their literals.  Writing
fails only for a number whose literal is none of JSON's and for an object that nests too deeply.
-/

namespace UiCodegen.Document.Json

/-- How a character of a string is written.  `html` also escapes the characters that have a meaning
in markup. -/
def escapeChar (html : Bool) : Utf8.Symbol → Bytes
  | .stray _ => "\\ufffd"
  | .char code =>
    if code == 34 then "\\\""
    else if code == 92 then "\\\\"
    else if code == 8 then "\\b"
    else if code == 12 then "\\f"
    else if code == 10 then "\\n"
    else if code == 13 then "\\r"
    else if code == 9 then "\\t"
    else if code < 0x20 || (html && (code == 60 || code == 62 || code == 38)) then
      "\\u" ++ Integer.fixedWidth 16 4 code
    else if code == 0x2028 || code == 0x2029 then "\\u" ++ Integer.fixedWidth 16 4 code
    else Utf8.encode code

def encodeString (html : Bool) (s : Bytes) : Bytes :=
  "\"" ++ (Utf8.symbols s).flatMap (escapeChar html) ++ "\""

def isNumber (s : Bytes) : Bool :=
  match s with
  | [] => false
  | c :: rest =>
    let state? : Option NumberState :=
      if c == 45 then some .minus
      else if c == 48 then some .zero
      else if Bytes.isDigit c then some .integer
      else none
    match state? with
    | none => false
    | some state =>
      match scanNumber state 1 rest with
      | .ok (_, []) => true
      | _ => false

mutual

/-- The compact text of a value in front of `behind`, if the value has one.  What follows is handed in, so
that no text is copied for the containers around it. -/
def encodeBefore? : Value → (behind : Bytes) → Option Bytes
  | .null, behind => some ("null" ++ behind)
  | .bool true, behind => some ("true" ++ behind)
  | .bool false, behind => some ("false" ++ behind)
  | .num literal, behind =>
    if literal.isEmpty then some ("0" ++ behind)
    else if isNumber literal then some (literal ++ behind)
    else none
  | .str text, behind => some (encodeString false text ++ behind)
  | .arr items, behind => (encodeItems? true items (93 :: behind)).map (91 :: ·)
  | .obj pairs, behind => (encodeFields? true pairs (125 :: behind)).map (123 :: ·)

/-- The texts of elements of an array in front of `behind`, with a comma in front of each but the first of
the array. -/
def encodeItems? (first : Bool) : List Value → (behind : Bytes) → Option Bytes
  | [], behind => some behind
  | v :: rest, behind => do
    let text ← encodeBefore? v (← encodeItems? false rest behind)
    return if first then text else 44 :: text

/-- The texts of pairs of an object in front of `behind`, with a comma in front of each but the first of
the object. -/
def encodeFields? (first : Bool) : List (Bytes × Value) → (behind : Bytes) → Option Bytes
  | [], behind => some behind
  | (key, v) :: rest, behind => do
    let text ← encodeBefore? v (← encodeFields? false rest behind)
    let text := encodeString false key ++ 58 :: text
    return if first then text else 44 :: text

end

/-! ## Nesting -/

/-- How many containers may stand inside each other in an object that is written, the object included. -/
def nestingLimit : Nat := 10000

mutual

/-- How many containers stand inside each other in a value, the value included. -/
def nesting : Value → Nat
  | .arr items => nestingItems items + 1
  | .obj pairs => nestingFields pairs + 1
  | _ => 0

/-- How many containers stand inside each other in any of several values. -/
def nestingItems : List Value → Nat
  | [] => 0
  | v :: rest => max (nesting v) (nestingItems rest)

/-- How many containers stand inside each other in any value of several pairs. -/
def nestingFields : List (Bytes × Value) → Nat
  | [] => 0
  | (_, v) :: rest => max (nesting v) (nestingFields rest)

end

mutual

/-- Whether all objects of a value keep within the limit.  The arrays around an object do not count. -/
def isShallow : Value → Bool
  | .arr items => areShallow items
  | .obj pairs => nesting (.obj pairs) ≤ nestingLimit
  | _ => true

/-- Whether all objects of several values keep within the limit. -/
def areShallow : List Value → Bool
  | [] => true
  | v :: rest => isShallow v && areShallow rest

end

def encode? (v : Value) : Option Bytes := if isShallow v then encodeBefore? v [] else none

end UiCodegen.Document.Json
