import UiCodegen.Bytes

/-!
# Dates and times

A moment is written as a date, or as a date with a time of day: a year of four digits, a month and a
day, and then possibly hour, minute and second behind blanks, or behind a `T` and with a time zone.
A date alone is its first moment, and without a time zone universal time is meant.
-/

namespace UiCodegen

/-- A moment as a calendar and a clock of its time zone show it. -/
structure Moment where
  year : Nat
  month : Nat
  day : Nat
  hour : Nat := 0
  minute : Nat := 0
  second : Nat := 0
  nanosecond : Nat := 0
  zone : Int := 0
  deriving DecidableEq, Repr

namespace Moment

variable (m : Moment)

/-! ## Reading -/

def mark? (b : UInt8) : Bytes → Option Bytes
  | [] => none
  | x :: rest => if x == b then some rest else none

def numberOf (digits : Bytes) : Nat := digits.foldl (fun n b => n * 10 + (b.toNat - 48)) 0

/-- A number of one or two digits at the front that is within bounds, and the rest. -/
def short? (low high : Nat) (s : Bytes) : Option (Nat × Bytes) :=
  let digits := (s.takeWhile Bytes.isDigit).take 2
  let n := numberOf digits
  if digits.isEmpty || n < low || high < n then none else some (n, s.drop digits.length)

def daysIn (year month : Nat) : Nat :=
  if month == 2 then if year % 4 == 0 && (year % 100 != 0 || year % 400 == 0) then 29 else 28
  else if [4, 6, 9, 11].contains month then 30
  else 31

def date? (s : Bytes) : Option (Moment × Bytes) := do
  let digits := s.takeWhile Bytes.isDigit
  if digits.length != 4 then none
  let year := numberOf digits
  let (month, rest) ← short? 1 12 (← mark? 45 (s.drop 4))
  let (day, rest) ← short? 1 (daysIn year month) (← mark? 45 rest)
  return ({ year, month, day }, rest)

/-- The nanoseconds of a fraction at the front, if there is one, and the rest.  Further digits are
dropped. -/
def fraction (s : Bytes) : Nat × Bytes :=
  match s with
  | mark :: rest =>
    let digits := rest.takeWhile Bytes.isDigit
    if (mark == 46 || mark == 44) && !digits.isEmpty then
      (numberOf ((digits.take 9) ++ List.replicate (9 - digits.length) 48), rest.drop digits.length)
    else (0, s)
  | [] => (0, s)

/-- A time of day at the front, and the rest. -/
def time? (s : Bytes) : Option (Moment × Bytes) := do
  let (hour, rest) ← short? 0 23 s
  let (minute, rest) ← short? 0 59 (← mark? 58 rest)
  let (second, rest) ← short? 0 59 (← mark? 58 rest)
  let (nanosecond, rest) := fraction rest
  return ({ m with hour, minute, second, nanosecond }, rest)

/-- A time zone, as the minutes it is ahead: `Z`, or hours and minutes with a sign. -/
def zone? (s : Bytes) : Option Int :=
  match s with
  | [90] => some 0
  | [sign, h₁, h₂, 58, m₁, m₂] => do
    if !([h₁, h₂, m₁, m₂].all Bytes.isDigit) then none
    let (hours, _) ← short? 0 24 [h₁, h₂]
    let (minutes, _) ← short? 0 60 [m₁, m₂]
    if sign == 43 then some (hours * 60 + minutes)
    else if sign == 45 then some (-(hours * 60 + minutes : Int))
    else none
  | _ => none

def parse? (s : Bytes) : Option Moment := do
  let (date, rest) ← date? s
  match rest with
  | [] => some date
  | mark :: rest =>
    if mark == 32 then
      let (m, rest) ← time? date (rest.dropWhile (· == 32))
      if rest.isEmpty then some m else none
    else if mark == 84 || mark == 116 then
      let (m, rest) ← time? date rest
      (zone? rest).map fun zone => { m with zone }
    else none

/-! ## Order -/

/-- The number of days from the first day of year zero up to the first day of a month.  Years are
counted from March, so that a leap day is the last one. -/
def daysBefore (year month : Nat) : Int :=
  let year : Int := if month ≤ 2 then (year : Int) - 1 else year
  let month : Int := (month + 9) % 12
  year * 365 + year / 4 - year / 100 + year / 400 + (month * 153 + 2) / 5

def seconds : Int :=
  (daysBefore m.year m.month + m.day) * 86400 + (m.hour * 3600 + m.minute * 60 + m.second :
    Nat) - m.zone * 60

/-! ## Writing -/

/-- A number with at least `width` digits. -/
def padded (width n : Nat) : Bytes :=
  let digits := Bytes.ofNat n
  List.replicate (width - digits.length) 48 ++ digits

/-- The fraction of a second behind a point, without zeros at its end. -/
def fractionText : Bytes :=
  let digits := Bytes.dropEndWhile (· == 48) (padded 9 m.nanosecond)
  if digits.isEmpty then [] else 46 :: digits

def zoneText : Bytes :=
  let minutes := m.zone.natAbs
  (if m.zone < 0 then 45 else 43) :: padded 2 (minutes / 60) ++ padded 2 (minutes % 60)

/-- The text of a moment, with its zone and the name of the zone. -/
def text : Bytes :=
  padded 4 m.year ++ "-" ++ padded 2 m.month ++ "-" ++ padded 2 m.day ++ " " ++
  padded 2 m.hour ++ ":" ++ padded 2 m.minute ++ ":" ++ padded 2 m.second ++
    m.fractionText ++ " " ++
  m.zoneText ++ " " ++ (if m.zone == 0 then Bytes.ofString "UTC" else m.zoneText)

end Moment

end UiCodegen
