import UiCodegen.Document.Json.Encode

/-!
# Reports in JSON

The text of a value in JSON over several lines, indented by two spaces for each level.  Characters
that have a meaning in markup are escaped.
-/

namespace UiCodegen.Report.Json

def margin (depth : Nat) : Bytes := 10 :: List.replicate (2 * depth) 32

/-- Parts on lines of their own between two marks; without parts the marks stand together. -/
def bracketed (left right : Bytes) (depth : Nat) (parts : List Bytes) : Bytes :=
  if parts.isEmpty then left ++ right
  else
    left ++ Bytes.join "," (parts.map (margin (depth + 1) ++ ·)) ++ margin depth ++ right

mutual

def indented (depth : Nat) : Value → Bytes
  | .null => "null"
  | .bool true => "true"
  | .bool false => "false"
  | .num literal => literal
  | .str text => Document.Json.encodeString true text
  | .arr items => bracketed "[" "]" depth (indentedItems (depth + 1) items)
  | .obj pairs => bracketed "\x7b" "\x7d" depth (indentedFields (depth + 1) pairs)

def indentedItems (depth : Nat) : List Value → List Bytes
  | [] => []
  | v :: rest => indented depth v :: indentedItems depth rest

def indentedFields (depth : Nat) : List (Bytes × Value) → List Bytes
  | [] => []
  | (key, v) :: rest =>
    (Document.Json.encodeString true key ++ ": " ++ indented depth v) :: indentedFields depth rest

end

/-- The text of a value, with a line end. -/
def document (v : Value) : Bytes := indented 0 v ++ [10]

def number (n : Int) : Value := .num (Bytes.ofInt n)

def textField (key : String) (s : Bytes) : Bytes × Value := (key, .str s)

def numberField (key : String) (n : Int) : Bytes × Value := (key, number n)

def listField (key : String) (items : List Value) : Bytes × Value := (key, .arr items)

/-- A pair with a number, left out if it is zero. -/
def countField (key : String) (n : Nat) : List (Bytes × Value) :=
  if n == 0 then [] else [numberField key n]

end UiCodegen.Report.Json
