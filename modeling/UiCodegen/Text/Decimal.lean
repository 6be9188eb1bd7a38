import UiCodegen.Bytes

/-!
# Decimal fractions and binary floating point

Reading a decimal fraction as the nearest double, and writing a double with the fewest digits that
read back as it.  All arithmetic is exact, on natural numbers.

A double is `mantissa * 2 ^ exponent`.  A decimal in between two doubles goes to the nearer one, and
to the one with the even mantissa if it is halfway.  To write a double, decimals with one digit, two
digits, and so on are tried; the first that lies in the interval of numbers that read back as the
double is taken, and of two the nearer.
-/

namespace UiCodegen.Decimal

/-- A finite double: `mantissa * 2 ^ exponent`, with `mantissa < 2 ^ 53` and `-1074 ≤ exponent`. -/
structure Double where
  negative : Bool
  mantissa : Nat
  exponent : Int
  deriving DecidableEq, Repr

/-- A double as a multiple of the power of two with an exponent that is at most its own. -/
def Double.scaledTo (x : Double) (exponent : Int) : Int :=
  let size : Int := x.mantissa * Int.pow 2 (x.exponent - exponent).toNat
  if x.negative then -size else size

def Double.le (x y : Double) : Bool :=
  let exponent := min x.exponent y.exponent
  x.scaledTo exponent ≤ y.scaledTo exponent

/-! ## Reading -/

/-- The quotient `num / (den * 2 ^ e)` and its remainder over the divisor. -/
def scaled (num den : Nat) (e : Int) : Nat × Nat × Nat :=
  let num := if e < 0 then num * Nat.pow 2 e.natAbs else num
  let den := if e < 0 then den else den * Nat.pow 2 e.natAbs
  (num / den, num % den, den)

/-- A quotient rounded to the nearest integer, halves to even. -/
def roundEven (q r den : Nat) : Nat :=
  if 2 * r < den then q else if den < 2 * r then q + 1 else if q % 2 == 0 then q else q + 1

/-- The exponent at which a fraction has a mantissa of 53 bits, or the least exponent. -/
def exponentOf (num den : Nat) : Int :=
  let e : Int := max ((Nat.log2 num : Int) - Nat.log2 den - 53) (-1074)
  if Nat.pow 2 53 ≤ (scaled num den e).1 then e + 1 else e

/-- The double nearest to a fraction; `none` if it is too large for one. -/
def nearest? (negative : Bool) (num den : Nat) : Option Double :=
  if num == 0 then some ⟨negative, 0, -1074⟩
  else
    let e := exponentOf num den
    let (q, r, den) := scaled num den e
    let m := roundEven q r den
    let (m, e) := if m == Nat.pow 2 53 then (Nat.pow 2 52, e + 1) else (m, e)
    if 971 < e then none else some ⟨negative, m, e⟩

/-- The double nearest to `digits * 10 ^ power`. -/
def ofDecimal? (negative : Bool) (digits : Nat) (power : Int) : Option Double :=
  let size : Int := (Nat.toDigits 10 digits).length + power
  if digits == 0 || size < -330 then some ⟨negative, 0, -1074⟩
  else if 310 < size then none
  else if power < 0 then nearest? negative digits (Nat.pow 10 power.natAbs)
  else nearest? negative (digits * Nat.pow 10 power.natAbs) 1

def digitsValue (s : Bytes) : Nat := s.foldl (fun n b => n * 10 + (b.toNat - 48)) 0

/-- A power of ten behind `e`: an optional sign and at least one digit. -/
def power? (s : Bytes) : Option Int :=
  let (negative, digits) := match s with
    | 43 :: rest => (false, rest)
    | 45 :: rest => (true, rest)
    | rest => (false, rest)
  if digits.isEmpty || !digits.all Bytes.isDigit then none
  else
    let n : Int := digitsValue digits
    some (if negative then -n else n)

/-- A decimal fraction as sign, digits and power of ten: digits with an optional point among them,
and an optional power. -/
def parts? (s : Bytes) : Option (Bool × Nat × Int) :=
  let (negative, s) := match s with
    | 43 :: rest => (false, rest)
    | 45 :: rest => (true, rest)
    | rest => (false, rest)
  let whole := s.takeWhile Bytes.isDigit
  let behind := s.dropWhile Bytes.isDigit
  let (fraction, behind) := match behind with
    | 46 :: rest => (rest.takeWhile Bytes.isDigit, rest.dropWhile Bytes.isDigit)
    | rest => ([], rest)
  if whole.isEmpty && fraction.isEmpty then none
  else
    let power := match behind with
      | [] => some 0
      | b :: rest => if Bytes.lowerByte b == 101 then power? rest else none
    power.map fun p => (negative, digitsValue (whole ++ fraction), p - fraction.length)

/-- Reads a decimal fraction as a double, if it is one and not too large. -/
def parse? (s : Bytes) : Option Double := do
  let (negative, digits, power) ← parts? s
  ofDecimal? negative digits power

/-! ## Writing -/

/-- Digits `0.d₁d₂… * 10 ^ point`, without zeros at the end. -/
structure Digits where
  digits : Bytes
  point : Int
  deriving DecidableEq, Repr

/-- A number `q * 10 ^ power` as digits. -/
def Digits.ofScaled (q : Nat) (power : Int) : Digits :=
  let digits := Bytes.ofNat q
  { digits := Bytes.dropEndWhile (· == 48) digits, point := digits.length + power }

/-- The numbers that read back as a double, times a power of two: below it, itself and above it. -/
def interval (d : Double) : Nat × Nat × Nat × Int :=
  let low := if d.mantissa == Nat.pow 2 52 && -1074 < d.exponent then 4 * d.mantissa - 1
    else 4 * d.mantissa - 2
  (low, 4 * d.mantissa, 4 * d.mantissa + 2, d.exponent - 2)

/-- The least `p` from `p₀` on with `num < den * 10 ^ p`, in at most so many steps. -/
def pointFrom (num den : Nat) : (steps : Nat) → Int → Int
  | 0, p => p
  | steps + 1, p =>
    let below := if p < 0 then num * Nat.pow 10 p.natAbs < den else num < den * Nat.pow 10 p.natAbs
    if below then p else pointFrom num den steps (p + 1)

/-- Tries decimals with `n` digits and more.  Of two that read back the nearer one is taken, and of
two equally near ones that with an even last digit. -/
def shortestFrom (low mid high den : Nat) (inclusive : Bool) (point : Int) :
    (n steps : Nat) → Digits
  | n, 0 => Digits.ofScaled (mid / den) (point - n)
  | n, steps + 1 =>
    -- One unit of the last digit is `10 ^ power`; all sides are brought over one denominator.
    let power := point - n
    let up := if power < 0 then Nat.pow 10 power.natAbs else 1
    let unit := if power < 0 then den else den * Nat.pow 10 power.natAbs
    let low' := low * up
    let mid' := mid * up
    let high' := high * up
    let q := mid' / unit
    let inside (x : Nat) : Bool :=
      if inclusive then low' ≤ x && x ≤ high' else low' < x && x < high'
    let below := inside (q * unit)
    let above := inside ((q + 1) * unit)
    let excess := 2 * (mid' - q * unit)
    if below && (!above || excess < unit || (excess == unit && q % 2 == 0)) then
      Digits.ofScaled q power
    else if above then Digits.ofScaled (q + 1) power
    else shortestFrom low mid high den inclusive point (n + 1) steps

def shortest (d : Double) : Digits :=
  if d.mantissa == 0 then ⟨[], 0⟩
  else
    let (low, mid, high, e) := interval d
    let scale := if e < 0 then 1 else Nat.pow 2 e.natAbs
    let den := if e < 0 then Nat.pow 2 e.natAbs else 1
    let point := pointFrom (mid * scale) den 700 (-330)
    shortestFrom (low * scale) (mid * scale) (high * scale) den (d.mantissa % 2 == 0) point 1 17

/-- Digits with a point and no power of ten. -/
def positional (d : Digits) : Bytes :=
  if d.point ≤ 0 then
    "0" ++ Bytes.onlyIf (!d.digits.isEmpty)
      (46 :: List.replicate d.point.natAbs 48 ++ d.digits)
  else
    let n := d.point.toNat
    let whole := d.digits.take n
    whole ++ List.replicate (n - whole.length) 48 ++
      Bytes.onlyIf (n < d.digits.length) (46 :: d.digits.drop n)

/-- Digits with one in front of the point and a power of ten of at least two digits. -/
def scientific (d : Digits) : Bytes :=
  let power := d.point - 1
  d.digits.take 1 ++ Bytes.onlyIf (1 < d.digits.length) (46 :: d.digits.drop 1) ++
  (if power < 0 then Bytes.ofString "e-" else Bytes.ofString "e+") ++
  Bytes.onlyIf (power.natAbs < 10) "0" ++ Bytes.ofNat power.natAbs

/-- A double in general notation: without a power of ten if that is from -4 to 5. -/
def general (x : Double) : Bytes :=
  let d := shortest x
  let power := d.point - 1
  Bytes.onlyIf x.negative "-" ++ (if power < -4 || 6 ≤ power then scientific d else positional d)

/-- A double without a power of ten. -/
def plain (x : Double) : Bytes := Bytes.onlyIf x.negative "-" ++ positional (shortest x)

end UiCodegen.Decimal
