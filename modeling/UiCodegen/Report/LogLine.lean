import UiCodegen.Log
import UiCodegen.Text.Quoted

/-!
# Log records as text

A record is one line of pairs: its level, its message and its attributes.
-/

namespace UiCodegen.Log

/-- Whether a symbol keeps a value from standing without quotes. -/
def needsQuotes (u : Utf8.Symbol) : Bool :=
  match u with
  | .stray _ => true
  | .char code =>
    if code < 0x80 then code < 0x21 || code == 34 || code == 61
    else code == Utf8.replacement || !Printable.isPrintable code

def pairValue (s : Bytes) : Bytes :=
  if s.isEmpty || (Utf8.symbols s).any needsQuotes then Quoted.quote s else s

def Record.line (r : Record) : Bytes :=
  let head : List (Bytes × Bytes) := [("level", r.level.name), ("msg", r.message)]
  Bytes.join " " ((head ++ r.attributes).map fun (key, value) => pairValue key ++ "=" ++
    pairValue value) ++ "\n"

/-- The lines of the records that are at least as important as `level`. -/
def lines (level : Level) (records : List Record) : Bytes :=
  (atLeast level records).flatMap Record.line

end UiCodegen.Log
