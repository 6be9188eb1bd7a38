import UiCodegen.Bytes

/-!
# Integers in text

Reading integers of 64 bits in a given base, or in the base that the text itself announces (`0x`,
`0o`, `0b`, a leading `0`, with `_` allowed between digits).  Reading goes digit by digit from the
left, so of a bad digit and a value that is too large the one that shows first is reported.
-/

namespace UiCodegen.Integer

/-- Why a text is no integer. -/
inductive Fault where
  /-- The text has no digits, or something that is no digit of the base. -/
  | malformed
  /-- The value does not fit. -/
  | outOfRange
  deriving DecidableEq, Repr

/-- How the base is found. -/
inductive Base where
  | fixed (base : Nat)
  /-- The base announced by the text; `_` may stand between digits. -/
  | announced
  deriving DecidableEq, Repr

def digit? (b : UInt8) : Option Nat :=
  if Bytes.isDigit b then some (b.toNat - 48)
  else
    let l := Bytes.lowerByte b
    if Bytes.isLower l then some (l.toNat - 87) else none

/-- Reads the digits of an unsigned value below `2 ^ 64` onto `acc`, passing over `_` if asked. -/
def digits (base : Nat) (skipUnderscores : Bool) (acc : Nat) : Bytes → Except Fault Nat
  | [] => .ok acc
  | b :: rest =>
    if b == 95 && skipUnderscores then digits base skipUnderscores acc rest
    else match digit? b with
      | none => .error .malformed
      | some d =>
        if base ≤ d then .error .malformed
        else if Nat.pow 2 64 ≤ acc * base + d then .error .outOfRange
        else digits base skipUnderscores (acc * base + d) rest

/-- What the last octet was, while the places of `_` are checked. -/
inductive Before where
  | start | digit | underscore | other
  deriving DecidableEq, Repr

/-- Whether every `_` of the text follows a digit and is followed by one. -/
def underscoresFrom (hex : Bool) (before : Before) : Bytes → Bool
  | [] => before != .underscore
  | b :: rest =>
    if Bytes.isDigit b || (hex && (97 ≤ Bytes.lowerByte b && Bytes.lowerByte b ≤ 102)) then
      underscoresFrom hex .digit rest
    else if b == 95 then before == .digit && underscoresFrom hex .underscore rest
    else before != .underscore && underscoresFrom hex .other rest

/-- Whether `_` stands only between digits; a base mark counts as a digit. -/
def underscoresBetweenDigits (s : Bytes) : Bool :=
  match s with
  | 48 :: b :: rest =>
    let l := Bytes.lowerByte b
    if l == 98 || l == 111 || l == 120 then underscoresFrom (l == 120) .digit rest
    else underscoresFrom false .start s
  | _ => underscoresFrom false .start s

def parseUnsigned (base : Base) (s : Bytes) : Except Fault Nat :=
  if s.isEmpty then .error .malformed
  else match base with
    | .fixed b => digits b false 0 s
    | .announced => do
      let n ← match s with
        | 48 :: mark :: first :: rest =>
          let l := Bytes.lowerByte mark
          if l == 98 then digits 2 true 0 (first :: rest)
          else if l == 111 then digits 8 true 0 (first :: rest)
          else if l == 120 then digits 16 true 0 (first :: rest)
          else digits 8 true 0 (mark :: first :: rest)
        | 48 :: rest => digits 8 true 0 rest
        | _ => digits 10 true 0 s
      if s.contains 95 && !underscoresBetweenDigits s then .error .malformed else .ok n

def parse (base : Base) (s : Bytes) : Except Fault Int := do
  let (negative, body) := match s with
    | 43 :: rest => (false, rest)
    | 45 :: rest => (true, rest)
    | _ => (false, s)
  let n ← parseUnsigned base body
  if negative then
    if n ≤ Nat.pow 2 63 then .ok (-(n : Int)) else .error .outOfRange
  else if n < Nat.pow 2 63 then .ok n else .error .outOfRange

def parse? (base : Base) (s : Bytes) : Option Int := (parse base s).toOption

def parseUnsigned? (base : Base) (s : Bytes) : Option Nat := (parseUnsigned base s).toOption

def wrap64 (i : Int) : Int := Int.bmod i (Nat.pow 2 64)

def hexDigit (n : Nat) : UInt8 := if n < 10 then (48 + n).toUInt8 else (87 + n).toUInt8

/-- The `width` lowest digits of `n` in `base`, leading zeros included. -/
def fixedWidth (base width n : Nat) : Bytes :=
  match width with
  | 0 => []
  | w + 1 => fixedWidth base w (n / base) ++ [hexDigit (n % base)]

end UiCodegen.Integer
