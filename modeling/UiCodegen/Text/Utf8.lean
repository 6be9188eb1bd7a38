import UiCodegen.Bytes

/-!
# UTF-8

The one place where octets are read as characters.  A text is read as a list of symbols: a symbol is
a code point with a well-formed encoding, or one stray octet that begins none.  Reading never fails;
each caller decides what a stray octet means (most take it for U+FFFD).
-/

namespace UiCodegen.Utf8

/-- What one step of reading yields. -/
inductive Symbol where
  /-- A code point, from a well-formed sequence. -/
  | char (code : Nat)
  /-- An octet at which no well-formed sequence begins. -/
  | stray (octet : UInt8)
  deriving DecidableEq, Repr

/-- U+FFFD, which stands for what cannot be read. -/
def replacement : Nat := 0xFFFD

/-- The code point of a symbol; a stray octet reads as U+FFFD. -/
def Symbol.code : Symbol → Nat
  | .char code => code
  | .stray _ => replacement

/-- An octet that may continue a sequence, as the six bits it carries. -/
def tail? (b : UInt8) : Option Nat :=
  if 0x80 ≤ b && b ≤ 0xBF then some (b.toNat - 0x80) else none

/-- The code point and the octet count of the well-formed sequence that begins the text, if any.
Overlong forms, surrogates and values above U+10FFFF are not well-formed. -/
def first? : Bytes → Option (Nat × Nat)
  | [] => none
  | a :: rest =>
    if a < 0x80 then some (a.toNat, 1)
    else if 0xC2 ≤ a && a ≤ 0xDF then
      match rest with
      | b :: _ => (tail? b).map fun y => ((a.toNat - 0xC0) * 64 + y, 2)
      | [] => none
    else if 0xE0 ≤ a && a ≤ 0xEF then
      match rest with
      | b :: c :: _ => do
        let y ← tail? b
        let z ← tail? c
        let code := ((a.toNat - 0xE0) * 64 + y) * 64 + z
        if code < 0x800 || (0xD800 ≤ code && code ≤ 0xDFFF) then none else some (code, 3)
      | _ => none
    else if 0xF0 ≤ a && a ≤ 0xF4 then
      match rest with
      | b :: c :: d :: _ => do
        let y ← tail? b
        let z ← tail? c
        let w ← tail? d
        let code := (((a.toNat - 0xF0) * 64 + y) * 64 + z) * 64 + w
        if code < 0x10000 || 0x10FFFF < code then none else some (code, 4)
      | _ => none
    else none

/-- Reads on behind the symbols of `acc` (last first), after skipping `skip` octets. -/
def symbolsFrom (acc : List Symbol) : Nat → Bytes → List Symbol
  | _, [] => acc.reverse
  | skip + 1, _ :: rest => symbolsFrom acc skip rest
  | 0, b :: rest =>
    match first? (b :: rest) with
    | some (code, size) => symbolsFrom (.char code :: acc) (size - 1) rest
    | none => symbolsFrom (.stray b :: acc) 0 rest

def symbols (s : Bytes) : List Symbol := symbolsFrom [] 0 s

/-- The code points of a text in order, with U+FFFD for each stray octet. -/
def codes (s : Bytes) : List Nat := (symbols s).map Symbol.code

def valid (s : Bytes) : Bool := (symbols s).all fun u => match u with
  | .char _ => true
  | .stray _ => false

/-- The encoding of a code point; what is no code point is written as U+FFFD. -/
def encode (code : Nat) : Bytes :=
  if code < 0x80 then [code.toUInt8]
  else if code < 0x800 then [(0xC0 + code / 64).toUInt8, (0x80 + code % 64).toUInt8]
  else if (0xD800 ≤ code && code ≤ 0xDFFF) || 0x10FFFF < code then [0xEF, 0xBF, 0xBD]
  else if code < 0x10000 then
    [(0xE0 + code / 4096).toUInt8, (0x80 + code / 64 % 64).toUInt8, (0x80 + code % 64).toUInt8]
  else
    [(0xF0 + code / 262144).toUInt8, (0x80 + code / 4096 % 64).toUInt8,
      (0x80 + code / 64 % 64).toUInt8, (0x80 + code % 64).toUInt8]

def ofCodes (codes : List Nat) : Bytes := codes.flatMap encode

def Symbol.bytes : Symbol → Bytes
  | .char code => encode code
  | .stray octet => [octet]

end UiCodegen.Utf8
