import UiCodegen.Text.SnakeCase

/-!
# C identifiers

Turns any text into a small-letter identifier: snake case, one `_` for each run of other octets, none
at either end, `n` in front of a leading digit, and a `_` behind a reserved word.
-/

namespace UiCodegen.C

/-- The reserved words an identifier must not be. -/
def keywords : List Bytes :=
  ["auto", "break", "case", "char", "const", "continue", "default", "do", "double", "else", "enum",
    "extern", "float", "for", "goto", "if", "inline", "int", "long", "register", "restrict",
    "return", "short", "signed", "sizeof", "static", "struct", "switch", "typedef", "union",
    "unsigned", "void", "volatile", "while", "bool"].map Bytes.ofString

def wordOctet (b : UInt8) : UInt8 :=
  if b == 95 || Bytes.isLetter b || Bytes.isDigit b then b else 95

def squeeze (s : Bytes) : Bytes :=
  s.foldr (fun b acc => if b == 95 && acc.head? == some 95 then acc else b :: acc) []

/-- The words of a text joined by single `_`, with none at the ends. -/
def joined (s : Bytes) : Bytes :=
  squeeze (Bytes.trimBoth (· == 95) ((SnakeCase.snake s).map wordOctet))

def identifier (s : Bytes) : Bytes :=
  match joined s with
  | [] => "x"
  | b :: rest =>
    let id := if Bytes.isDigit b then 110 :: b :: rest else b :: rest
    if keywords.contains id then id ++ "_" else id

end UiCodegen.C
