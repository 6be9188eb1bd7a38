import UiCodegen.Text.Blank

/-!
# The table of constants

Maps the names of constants to their C expressions.  The table is sorted by the hash of the name and
then by the name, so that equal hashes are neighbours: a lookup goes to the first entry with the
hash and walks on as long as the hash stays the same.  The generated code searches the same table
the same way, which is why the hash and the order are part of the table.
-/

namespace UiCodegen.EnumTable

/-- The hash of a name: `33 * h + c` over its octets, from 5381 on, in 32 bits. -/
def djb2 (s : Bytes) : UInt32 := s.foldl (fun h b => h * 33 + b.toUInt32) 5381

/-- Where an entry comes from. -/
inductive Origin where
  | api
  | definition
  | user
  | unknown
  deriving DecidableEq, Repr

def Origin.name : Origin → Bytes
  | .api => "api"
  | .definition => "macro"
  | .user => "user"
  | .unknown => "unknown"

/-- A constant. -/
structure Entry where
  /-- The hash of the name; zero before the entry is in a table. -/
  hash : UInt32 := 0
  name : Bytes
  value : Int64 := 0
  /-- Whether `value` is known. -/
  hasValue : Bool := false
  /-- The C expression of the constant; empty if it is the number itself. -/
  expr : Bytes := []
  enumType : Bytes := []
  origin : Origin := .api
  deriving DecidableEq, Repr

def Entry.cValue (e : Entry) : Bytes := if e.expr.isEmpty then Bytes.ofInt e.value.toInt else e.expr

/-- Whether `a` may stand in front of `b` in a table. -/
def Entry.le (a b : Entry) : Bool :=
  if a.hash == b.hash then Bytes.le a.name b.name else a.hash < b.hash

end EnumTable

open EnumTable in
/-- The constants, sorted by hash and name. -/
structure EnumTable where
  entries : List Entry
  hash : Bytes → UInt32 := djb2

namespace EnumTable

def firstOfEach (entries : List Entry) : List Entry :=
  (entries.foldl
    (fun (kept : List Entry) e =>
      if e.name.isEmpty || kept.any (·.name == e.name) then kept else e :: kept)
    []).reverse

/-- The table of the given entries.  Of entries with one name the first is kept. -/
def build (entries : List Entry) (hash : Bytes → UInt32 := djb2) : EnumTable where
  entries := ((firstOfEach entries).map fun e => { e with hash := hash e.name }).mergeSort Entry.le
  hash := hash

/-- The first of the places from `lo` on and below `hi` at which `p` holds, found by halving, and
`hi` if there is none.  From the first place on at which it holds, `p` has to hold at all. -/
def search (p : Nat → Bool) (lo hi : Nat) : Nat :=
  if lo < hi then
    if p ((lo + hi) / 2) then search p lo ((lo + hi) / 2) else search p ((lo + hi) / 2 + 1) hi
  else lo
termination_by hi - lo

/-- The entry of a name: the search goes by the hash alone, and the entries with that hash are then
walked through. -/
def lookup? (t : EnumTable) (name : Bytes) : Option Entry :=
  let h := t.hash name
  let start := search (fun i => t.entries[i]?.any (h ≤ ·.hash)) 0 t.entries.length
  ((t.entries.drop start).takeWhile (·.hash == h)).find? (·.name == name)

def collisions (t : EnumTable) : List (List Entry) :=
  (t.entries.splitBy fun a b => a.hash == b.hash).filter fun run => 1 < run.length

/-- A resolved name, or several of them. -/
structure Resolved where
  c : Bytes
  /-- The values that are known, or-ed. -/
  value : Int64
  hasValue : Bool
  enumType : Bytes
  parts : List Entry
  deriving DecidableEq, Repr

def Resolved.ofParts (parts : List Entry) : Resolved where
  c := Bytes.join " | " (parts.map Entry.cValue)
  value := parts.foldl (fun v e => if e.hasValue then v ||| e.value else v) 0
  hasValue := parts.all (·.hasValue)
  enumType := (parts.head?.map (·.enumType)).getD []
  parts := parts

/-- Resolves a name, or several joined by `|`; every part must be in the table. -/
def resolve? (t : EnumTable) (s : Bytes) : Option Resolved :=
  let s := Blank.trim s
  if s.isEmpty then none
  else ((Bytes.splitOn 124 s).mapM fun part => t.lookup? (Blank.trim part)).map Resolved.ofParts

end EnumTable

end UiCodegen
