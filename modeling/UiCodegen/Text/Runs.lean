import UiCodegen.Bytes

/-!
# Runs of code points

A property of code points is given by a table of runs: how long a run is, and the value of its
members. The members of a run may also take turns between two values.  A set of code points is given
by its bounds.

A table of runs is written without blanks, and line breaks do not count.  A run is its length in
decimal digits, unless it is one, then the value, and the other value behind a `/` if there is one.
A value begins with a capital.  The first run begins at U+0000, and each other one behind the run in
front of it.
-/

namespace UiCodegen.Runs

/-- A run of code points, up to where the next one begins. -/
structure Run where
  first : Nat
  /-- The value of the first member, the third, and so on. -/
  even : Bytes
  /-- The value of the second member, the fourth, and so on. -/
  odd : Bytes
  deriving DecidableEq, Repr, Inhabited

/-- The value of a hexadecimal digit; letters are small. -/
def hexValue (b : UInt8) : Nat := if Bytes.isDigit b then b.toNat - 48 else b.toNat - 87

/-- The number that digits write. -/
def number (base : Nat) (digits : Bytes) : Nat := digits.foldl (fun n b => n * base + hexValue b) 0

/-- The number that hexadecimal digits write. -/
def hexNumber (digits : Bytes) : Nat := number 16 digits

/-- Whether a run ends between two octets: in front of a length, and between two values. -/
def isSeam (last b : UInt8) : Bool :=
  (Bytes.isDigit b && !Bytes.isDigit last) || (Bytes.isUpper b && Bytes.isLetter last)

/-- The runs of a table, as they are written. -/
def pieces (table : Bytes) : List Bytes :=
  (table.filter fun b => b != 10 && b != 32).splitBy fun last b => !isSeam last b

/-- The words of a table that has blanks or line breaks between them. -/
def words (table : Bytes) : List Bytes :=
  ((Bytes.splitOn 10 table).flatMap (Bytes.splitOn 32)).filter (!·.isEmpty)

/-- The runs that pieces give, the first of which begins at `first`. -/
def ofPieces (first : Nat) : List Bytes → List Run
  | [] => []
  | piece :: rest =>
    let digits := piece.takeWhile Bytes.isDigit
    let name := piece.drop digits.length
    let (even, odd) := (Bytes.cut? 47 name).getD (name, name)
    { first, even, odd } :: ofPieces (first + if digits.isEmpty then 1 else number 10 digits) rest

/-- The runs of a table. -/
def parse (table : String) : Array Run := (ofPieces 0 (pieces table)).toArray

/-- Where the inside and the outside of a set begin, in turn.  The table has the lengths of the
parts between these bounds. -/
def bounds (table : String) : Array Nat :=
  (((words table).map hexNumber).foldl (fun (ends, last) n => (ends.push (last + n), last + n))
    (#[], 0)).1

/-- The number of entries, between `low` and `high`, that begin at or in front of a code point; the
interval is halved in each step. -/
def countUpTo {α : Type} (first : α → Nat) (entries : Array α) (code : Nat) :
    (steps low high : Nat) → Nat
  | 0, low, _ => low
  | steps + 1, low, high =>
    if high ≤ low then low
    else
      let middle := (low + high) / 2
      if ((entries[middle]?).map fun entry => decide (first entry ≤ code)).getD false then
        countUpTo first entries code steps (middle + 1) high
      else countUpTo first entries code steps low middle

/-- The value of a code point; empty in front of the first run. -/
def value (runs : Array Run) (code : Nat) : Bytes :=
  match countUpTo Run.first runs code runs.size 0 runs.size with
  | 0 => []
  | n + 1 =>
    match runs[n]? with
    | some run => if (code - run.first) % 2 == 0 then run.even else run.odd
    | none => []

/-- Whether a code point lies in the set with these bounds. -/
def within (bounds : Array Nat) (code : Nat) : Bool :=
  countUpTo id bounds code bounds.size 0 bounds.size % 2 == 1

end UiCodegen.Runs
