import UiCodegen.Text.Category
import UiCodegen.Text.Script

/-!
# Named groups of characters

The groups that a pattern can name: escapes such as `\d`, bracketed names such as `[:alpha:]`, and
categories and scripts such as `\pL`.  In the names of categories and scripts neither the case of
letters counts nor blanks, underscores and hyphens.
-/

namespace UiCodegen.Pattern.Group

/-- The intervals of the groups `\d`, `\s` and `\w`. -/
def escape? (letter : UInt8) : Option (List (Nat × Nat)) :=
  if letter == 100 then some [(48, 57)]
  else if letter == 115 then some [(9, 10), (12, 13), (32, 32)]
  else if letter == 119 then some [(48, 57), (65, 90), (95, 95), (97, 122)]
  else none

def bracketed : List (Bytes × List (Nat × Nat)) :=
  [("alnum", [(48, 57), (65, 90), (97, 122)]),
   ("alpha", [(65, 90), (97, 122)]),
   ("ascii", [(0, 127)]),
   ("blank", [(9, 9), (32, 32)]),
   ("cntrl", [(0, 31), (127, 127)]),
   ("digit", [(48, 57)]),
   ("graph", [(33, 126)]),
   ("lower", [(97, 122)]),
   ("print", [(32, 126)]),
   ("punct", [(33, 47), (58, 64), (91, 96), (123, 126)]),
   ("space", [(9, 13), (32, 32)]),
   ("upper", [(65, 90)]),
   ("word", [(48, 57), (65, 90), (95, 95), (97, 122)]),
   ("xdigit", [(48, 57), (65, 70), (97, 102)])]

/-- A property of characters that a pattern can name. -/
inductive Property where
  | any
  | ascii
  /-- The code point has a character, or is set aside for other uses. -/
  | assigned
  | category (name : Bytes)
  | script (name : Bytes)
  deriving DecidableEq, Repr

def Property.has : Property → Nat → Bool
  | any, _ => true
  | ascii, code => code < 128
  | assigned, code => !Category.has "Cn" code
  | category name, code => Category.has name code
  | script name, code => Script.ofCode code == name

/-- What counts of a name: its letters and digits, in small letters. -/
def bare (name : Bytes) : Bytes :=
  (name.filter fun b => b != 32 && b != 45 && b != 95).map Bytes.lowerByte

def property? (name : Bytes) : Option Property :=
  let name := bare name
  if name == "any" then some .any
  else if name == "ascii" then some .ascii
  else if name == "assigned" then some .assigned
  else match Category.names.find? (·.any (bare · == name)) with
    | some names => some (.category (names.headD []))
    | none => (Script.names.find? (bare · == name)).map .script

end UiCodegen.Pattern.Group
