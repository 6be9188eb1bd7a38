import UiCodegen.Document.Yaml.Decode
import UiCodegen.Text.Fold
import UiCodegen.Text.Moment

/-!
# Values of settings

What a setting can hold before it is known which type it should have.  A value is read leniently: a
number passes for a text, a text for a number or a truth value, and a single value for a list.
-/

namespace UiCodegen.Config

/-- The value of a setting. -/
inductive Setting where
  | null
  | bool (b : Bool)
  | int (n : Int)
  /-- A fraction in general notation, or the word for what is no number. -/
  | float (literal : Bytes)
  | text (s : Bytes)
  | moment (m : Moment)
  | list (items : List Setting)
  | table (pairs : List (Setting × Setting))
  deriving Repr

abbrev Source := List (Bytes × Setting)

namespace Source

/-- The value under a name.  If there is none, letters may differ in case. -/
def setting? (s : Source) (name : Bytes) : Option Setting :=
  match s.lookup name with
  | some v => some v
  | none => (List.find? (fun (key, _) => Fold.alike key name) s).map (·.2)

def above (top bottom : Source) : Source :=
  top ++ bottom.filter fun (key, _) => !(top.any (·.1 == key))

end Source

namespace Setting

/-! ## Order of keys -/

/-- The kinds of keys, in the order in which they are shown.  Integers beyond 63 bits come last. -/
def rank : Setting → Nat
  | null => 0
  | bool _ => 1
  | float _ => 2
  | int n => if n < Int.pow 2 63 then 3 else 6
  | text _ => 4
  | moment _ => 5
  | list _ | table _ => 7

/-- Whether a fraction comes in front of another; what is no number comes first. -/
def fractionLe (a b : Bytes) : Bool :=
  match Decimal.parse? a, Decimal.parse? b with
  | some x, some y => x.le y
  | some _, none => b == "+Inf"
  | none, some _ => a != "+Inf"
  | none, none => a == "NaN" || b == "+Inf" || a == b

/-- Whether a key comes in front of another.  Of moments the nanoseconds are compared first. -/
def keyLe (a b : Setting) : Bool :=
  if a.rank != b.rank then a.rank < b.rank
  else match a, b with
    | bool x, bool y => !x || y
    | float x, float y => fractionLe x y
    | int x, int y => x ≤ y
    | text x, text y => Bytes.le x y
    | moment x, moment y =>
      if x.nanosecond == y.nanosecond then x.seconds ≤ y.seconds else x.nanosecond < y.nanosecond
    | _, _ => true

/-! ## Lenient reading -/

def boolText (b : Bool) : Bytes := if b then "true" else "false"

/-- The value as a text, if it is a single value.  Truth values are written as digits. -/
def asText? : Setting → Option Bytes
  | null => some []
  | bool b => some (if b then "1" else "0")
  | int n => some (Bytes.ofInt n)
  | float literal =>
    match Decimal.parse? literal with
    | some x => some (Decimal.plain x)
    | none => some literal
  | text s => some s
  | _ => none

/-- The least integer of 64 bits, which stands for a fraction that is out of range. -/
def leastInt : Int := -(Int.pow 2 63)

def truncated (x : Decimal.Double) : Int :=
  let size := if x.exponent < 0 then x.mantissa / Nat.pow 2 x.exponent.natAbs
    else x.mantissa * Nat.pow 2 x.exponent.natAbs
  let n : Int := if x.negative then -(size : Int) else size
  if n < -(Int.pow 2 63) || Int.pow 2 63 ≤ n then leastInt else n

def asInt? : Setting → Option Int
  | null => some 0
  | bool b => some (if b then 1 else 0)
  | int n => some (Integer.wrap64 n)
  | float literal =>
    match Decimal.parse? literal with
    | some x => some (truncated x)
    | none => some leastInt
  | text s => if s.isEmpty then some 0 else Integer.parse? .announced s
  | _ => none

def asBool? : Setting → Option Bool
  | null => some false
  | bool b => some b
  | int n => some (n != 0)
  | float literal =>
    match Decimal.parse? literal with
    | some x => some (x.mantissa != 0)
    | none => some true
  | text s => if s.isEmpty then some false else Document.Yaml.boolOf? s
  | _ => none

def asTexts? : Setting → Option (List Bytes)
  | null => some []
  | list items => items.mapM asText?
  | table [] => some []
  | v => (asText? v).map ([·])

mutual

/-- The text that a value shows; lists and tables are shown with their content. -/
def shown : Setting → Bytes
  | null => "<nil>"
  | bool b => boolText b
  | int n => Bytes.ofInt n
  | float literal => literal
  | text s => s
  | moment m => m.text
  | list items => "[" ++ Bytes.join " " (shownItems items) ++ "]"
  | table pairs =>
    "map[" ++ Bytes.join " " (((shownPairs pairs).mergeSort fun a b => a.1.keyLe b.1).map
      fun (_, s) => s) ++ "]"

def shownItems : List Setting → List Bytes
  | [] => []
  | v :: rest => shown v :: shownItems rest

/-- The keys of a table, with the texts of its pairs. -/
def shownPairs : List (Setting × Setting) → List (Setting × Bytes)
  | [] => []
  | (key, v) :: rest => (key, shown key ++ ":" ++ shown v) :: shownPairs rest

end

def asPath : Setting → Bytes
  | null => []
  | v => shown v

end Setting

end UiCodegen.Config
