import UiCodegen.Bytes

/-!
# Durations

A duration is a number of nanoseconds.  It is written in hours, minutes and seconds, or in one
smaller unit if it is below a second, with as few decimals as it takes; and it is read as a sum of
decimal numbers with units.
-/

namespace UiCodegen.Duration

def microsecond : Nat := 1000

def millisecond : Nat := 1000000

def second : Nat := 1000000000

def minute : Nat := 60 * second

def hour : Nat := 60 * minute

/-- `n` units of `10 ^ places` as a decimal number without zeros at its end. -/
def decimal (n places : Nat) : Bytes :=
  let rest := Bytes.ofNat (n % Nat.pow 10 places)
  let digits := Bytes.dropEndWhile (· == 48) (List.replicate (places - rest.length) 48 ++ rest)
  Bytes.ofNat (n / Nat.pow 10 places) ++ Bytes.onlyIf (!digits.isEmpty) (46 :: digits)

def text (d : Nat) : Bytes :=
  if d == 0 then "0s"
  else if d < microsecond then Bytes.ofNat d ++ "ns"
  else if d < millisecond then decimal d 3 ++ "µs"
  else if d < second then decimal d 6 ++ "ms"
  else
    Bytes.onlyIf (hour ≤ d) (Bytes.ofNat (d / hour) ++ "h") ++
    Bytes.onlyIf (minute ≤ d) (Bytes.ofNat (d % hour / minute) ++ "m") ++
    decimal (d % minute) 9 ++ "s"

/-- The nearest multiple of a unit; a half is rounded up. -/
def roundTo (unit d : Nat) : Nat := (2 * d + unit) / (2 * unit) * unit

/-! ## Reading -/

/-- Why a text is no duration. -/
inductive Fault where
  | malformed
  | missingUnit
  | unknownUnit (unit : Bytes)
  deriving DecidableEq, Repr

/-- A text between quotes; what is not printable ASCII is written in hexadecimal. -/
def quote (s : Bytes) : Bytes :=
  let hex (n : UInt8) : UInt8 := if n < 10 then 48 + n else 87 + n
  let octet (b : UInt8) : Bytes :=
    if b < 32 || 128 ≤ b then [92, 120, hex (b / 16), hex (b % 16)]
    else if b == 34 || b == 92 then [92, b]
    else [b]
  34 :: s.flatMap octet ++ [34]

/-- The wording of a fault in the text `s`. -/
def Fault.message (s : Bytes) : Fault → Bytes
  | malformed => "time: invalid duration " ++ quote s
  | missingUnit => "time: missing unit in duration " ++ quote s
  | unknownUnit unit => "time: unknown unit " ++ quote unit ++ " in duration " ++ quote s

def unit? (name : Bytes) : Option Nat :=
  if name == "ns" then some 1
  else if name == "us" || name == "µs" || name == "μs" then some microsecond
  else if name == "ms" then some millisecond
  else if name == "s" then some second
  else if name == "m" then some minute
  else if name == "h" then some hour
  else none

def number (digits : Bytes) : Nat := digits.foldl (fun n b => n * 10 + (b.toNat - 48)) 0

def limit : Nat := Nat.pow 2 63

def amount (whole decimals : Bytes) (unit : Nat) : Nat :=
  number whole * unit + number decimals * unit / Nat.pow 10 decimals.length

/-- Adds up at most `count` numbers with units. -/
def sum : (count total : Nat) → Bytes → Except Fault Nat
  | _, total, [] => .ok total
  | 0, _, _ => .error .malformed
  | count + 1, total, s =>
    let whole := s.takeWhile Bytes.isDigit
    let rest := s.drop whole.length
    let decimals := if Bytes.startsWith rest "." then (rest.drop 1).takeWhile Bytes.isDigit else []
    let rest := if Bytes.startsWith rest "." then rest.drop (decimals.length + 1) else rest
    if limit < number whole || (whole.isEmpty && decimals.isEmpty) then .error .malformed
    else
      let name := rest.takeWhile fun b => !(b == 46 || Bytes.isDigit b)
      if name.isEmpty then .error .missingUnit
      else match unit? name with
        | none => .error (.unknownUnit name)
        | some unit =>
          let total := total + amount whole decimals unit
          if limit < total then .error .malformed else sum count total (rest.drop name.length)

def parse (s : Bytes) : Except Fault Int :=
  let negative := Bytes.startsWith s "-"
  let body := if negative || Bytes.startsWith s "+" then s.drop 1 else s
  if body == "0" then .ok 0
  else if body.isEmpty then .error .malformed
  else match sum body.length 0 body with
    | .error fault => .error fault
    | .ok total =>
      if negative then .ok (-total)
      else if limit ≤ total then .error .malformed
      else .ok total

end UiCodegen.Duration
