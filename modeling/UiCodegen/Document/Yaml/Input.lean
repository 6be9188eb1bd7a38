import UiCodegen.Text.Utf8

/-!
# The characters of a YAML text

A text is in UTF-8, or in UTF-16 if it begins with a byte order mark that says so.  It is taken in
pieces of 512 octets, and a character that is not complete at the end of a piece is left for the
next one.  A piece with a character that cannot be read yields nothing; whether that matters depends
on whether the text is read so far.
-/

namespace UiCodegen.Document.Yaml

/-- How characters are written as octets. -/
inductive Encoding where
  | utf8
  /-- UTF-16 with the low octet of each unit first. -/
  | utf16Little
  /-- UTF-16 with the high octet of each unit first. -/
  | utf16Big
  deriving DecidableEq, Repr

/-- What stands at the front of some octets. -/
inductive Taken where
  | character (code width : Nat)
  | incomplete (problem : Bytes)
  | malformed (problem : Bytes)
  deriving DecidableEq, Repr

def isAllowed (code : Nat) : Bool :=
  code == 9 || code == 10 || code == 13 || (0x20 ≤ code && code ≤ 0x7E) || code == 0x85 ||
  (0xA0 ≤ code && code ≤ 0xD7FF) || (0xE000 ≤ code && code ≤ 0xFFFD) ||
  (0x10000 ≤ code && code ≤ 0x10FFFF)

def allowed (code width : Nat) : Taken :=
  if isAllowed code then .character code width else .malformed "control characters are not allowed"

/-- The number of octets of a character in UTF-8, by its first one. -/
def utf8Width? (lead : UInt8) : Option Nat :=
  if lead < 0x80 then some 1
  else if 0xC0 ≤ lead && lead < 0xE0 then some 2
  else if 0xE0 ≤ lead && lead < 0xF0 then some 3
  else if 0xF0 ≤ lead && lead < 0xF8 then some 4
  else none

def takeUtf8 (s : Bytes) : Taken :=
  match s with
  | [] => .incomplete []
  | lead :: _ =>
    match utf8Width? lead with
    | none => .malformed "invalid leading UTF-8 octet"
    | some width =>
      if (s.take width).length < width then .incomplete "incomplete UTF-8 octet sequence"
      else match Utf8.first? s with
        | some (code, width) => allowed code width
        | none => .malformed "invalid UTF-8 octet sequence"

/-- The first character of units in UTF-16, of which the octets are given from high to low. -/
def takeUtf16 (high low : UInt8) (next : Option (UInt8 × UInt8)) : Taken :=
  let unit := high.toNat * 256 + low.toNat
  if 0xDC00 ≤ unit && unit ≤ 0xDFFF then .malformed "unexpected low surrogate area"
  else if 0xD800 ≤ unit && unit ≤ 0xDBFF then
    match next with
    | none => .incomplete "incomplete UTF-16 surrogate pair"
    | some (high, low) =>
      let second := high.toNat * 256 + low.toNat
      if 0xDC00 ≤ second && second ≤ 0xDFFF then
        allowed (0x10000 + (unit - 0xD800) * 0x400 + (second - 0xDC00)) 4
      else .malformed "expected low surrogate area"
  else allowed unit 2

def Encoding.take (encoding : Encoding) (s : Bytes) : Taken :=
  match encoding, s with
  | .utf8, s => takeUtf8 s
  | .utf16Little, a :: b :: c :: d :: _ => takeUtf16 b a (some (d, c))
  | .utf16Little, a :: b :: _ => takeUtf16 b a none
  | .utf16Big, a :: b :: c :: d :: _ => takeUtf16 a b (some (c, d))
  | .utf16Big, a :: b :: _ => takeUtf16 a b none
  | _, _ => .incomplete "incomplete UTF-16 character"

/-- The encoding of a text, and what follows its byte order mark. -/
def Encoding.detect (s : Bytes) : Encoding × Bytes :=
  match s with
  | 0xFF :: 0xFE :: rest => (.utf16Little, rest)
  | 0xFE :: 0xFF :: rest => (.utf16Big, rest)
  | 0xEF :: 0xBB :: 0xBF :: rest => (.utf8, rest)
  | s => (.utf8, s)

/-- A piece of a text. -/
structure Piece where
  /-- Its characters, last first. -/
  reversed : List Nat
  /-- The octets of a character that is not complete. -/
  left : Bytes := []
  /-- What is wrong if nothing follows. -/
  problem : Bytes := []

/-- Reads the characters of a piece; or yields what is wrong with it.  A character takes at least
one octet. -/
def Encoding.piece (encoding : Encoding) : (octets : Nat) → Bytes → List Nat → Except Bytes Piece
  | 0, s, reversed => .ok { reversed, left := s }
  | octets + 1, s, reversed =>
    if s.isEmpty then .ok { reversed }
    else match encoding.take s with
      | .character code width => encoding.piece octets (s.drop width) (code :: reversed)
      | .incomplete problem => .ok { reversed, left := s, problem }
      | .malformed problem => .error problem

/-- The characters of a text as far as they can be read. -/
structure Input where
  codes : List Nat
  /-- The numbers of characters up to the end of each piece. -/
  ends : List Nat := []
  /-- What is wrong with the character behind the last one, if the text goes on. -/
  problem : Option Bytes := none
  deriving Repr

namespace Input

def pieceSize : Nat := 512

/-- Reads on in a text, the next piece having `size` octets.  Characters and ends of pieces stand
last first. -/
def readOn (encoding : Encoding) : (pieces size : Nat) → Bytes → Input → Input
  | 0, _, _, input => input
  | pieces + 1, size, s, input =>
    if s.isEmpty then input
    else
      let octets := s.take size
      match encoding.piece size octets [] with
      | .error problem => { input with problem := some problem }
      | .ok piece =>
        let input :=
          { input with
            codes := piece.reversed ++ input.codes
            ends := (input.ends.headD 0 + piece.reversed.length) :: input.ends }
        let rest := s.drop size
        if rest.isEmpty then
          if piece.left.isEmpty then input else { input with problem := some piece.problem }
        else readOn encoding pieces pieceSize (piece.left ++ rest) input

def ofBytes (s : Bytes) : Input :=
  let (encoding, rest) := Encoding.detect s
  let mark := s.length - rest.length
  let input := readOn encoding (s.length + 1) (pieceSize - mark) rest { codes := [] }
  { input with codes := input.codes.reverse, ends := input.ends.reverse }

end Input

end UiCodegen.Document.Yaml
