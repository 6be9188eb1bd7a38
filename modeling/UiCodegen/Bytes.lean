/-!
# Byte strings

Every text the generator reads or writes is a byte string: documents may be cut inside a character,
lengths and offsets count bytes, and emitted source is compared byte for byte.  A byte string is a
list of octets, so the list library carries the reasoning and induction follows the data.

String literals stand for their UTF-8 bytes through a coercion; all other meaning of characters
lives in `UiCodegen.Text.Utf8`.
-/

namespace UiCodegen

/-- A byte string: the octets in order. -/
abbrev Bytes := List UInt8

namespace Bytes

def ofString (s : String) : Bytes := s.toByteArray.data.toList

instance : Coe String Bytes := ⟨ofString⟩

def ofNat (n : Nat) : Bytes := (Nat.toDigits 10 n).map fun c => c.toNat.toUInt8

/-- Decimal text of an integer, with `-` in front of a negative one. -/
def ofInt (i : Int) : Bytes :=
  match i with
  | .ofNat n => ofNat n
  | .negSucc n => 45 :: ofNat (n + 1)

/-! ## Classes of octets -/

/-- The digits `0` to `9`. -/
def isDigit (b : UInt8) : Bool := 48 ≤ b && b ≤ 57

/-- The letters `a` to `z`. -/
def isLower (b : UInt8) : Bool := 97 ≤ b && b ≤ 122

/-- The letters `A` to `Z`. -/
def isUpper (b : UInt8) : Bool := 65 ≤ b && b ≤ 90

def isLetter (b : UInt8) : Bool := isLower b || isUpper b

/-- An ASCII capital as its small letter, everything else unchanged. -/
def lowerByte (b : UInt8) : UInt8 := if isUpper b then b + 32 else b

/-- An ASCII small letter as its capital, everything else unchanged. -/
def upperByte (b : UInt8) : UInt8 := if isLower b then b - 32 else b

def toLower (s : Bytes) : Bytes := s.map lowerByte

def toUpper (s : Bytes) : Bytes := s.map upperByte

/-! ## Parts of a byte string -/

/-- Whether `s` begins with `head`. -/
def startsWith (s head : Bytes) : Bool := head.isPrefixOf s

/-- Whether `s` ends with `tail`. -/
def endsWith (s tail : Bytes) : Bool := tail.isSuffixOf s

/-- `s` without `head` at its front, if it begins with it. -/
def dropHead? (s head : Bytes) : Option Bytes :=
  if startsWith s head then some (s.drop head.length) else none

/-- `s` without `tail` at its end, if it ends with it. -/
def dropTail? (s tail : Bytes) : Option Bytes :=
  if endsWith s tail then some (s.take (s.length - tail.length)) else none

/-- `s` without `head` at its front; unchanged if it does not begin with it. -/
def trimHead (s head : Bytes) : Bytes := (dropHead? s head).getD s

/-- `s` without `tail` at its end; unchanged if it does not end with it. -/
def trimTail (s tail : Bytes) : Bytes := (dropTail? s tail).getD s

/-- `s` without the octets at its end that satisfy `p`. -/
def dropEndWhile (p : UInt8 → Bool) (s : Bytes) : Bytes := (s.reverse.dropWhile p).reverse

/-- `s` without the octets at either end that satisfy `p`. -/
def trimBoth (p : UInt8 → Bool) (s : Bytes) : Bytes := dropEndWhile p (s.dropWhile p)

/-- The text before and after the first `sep`, if there is one. -/
def cut? (sep : UInt8) (s : Bytes) : Option (Bytes × Bytes) :=
  match s.dropWhile (· != sep) with
  | [] => none
  | _ :: rest => some (s.takeWhile (· != sep), rest)

/-- The text before and after the last `sep`, if there is one. -/
def cutLast? (sep : UInt8) (s : Bytes) : Option (Bytes × Bytes) :=
  (cut? sep s.reverse).map fun (back, front) => (front.reverse, back.reverse)

/-- The pieces between the octets `sep`; a text without one is its own single piece. -/
def splitOn (sep : UInt8) (s : Bytes) : List Bytes :=
  let (piece, pieces) := s.foldr
    (fun b (piece, pieces) => if b == sep then ([], piece :: pieces) else (b :: piece, pieces))
    (([] : Bytes), ([] : List Bytes))
  piece :: pieces

/-- The pieces in order with `sep` between neighbours. -/
def join (sep : Bytes) : List Bytes → Bytes
  | [] => []
  | piece :: pieces => piece ++ pieces.flatMap (sep ++ ·)

/-- Whether `part` occurs in `s`. -/
def includes (s part : Bytes) : Bool :=
  match s with
  | [] => part.isEmpty
  | _ :: rest => startsWith s part || includes rest part

/-- The text from the first occurrence of `part` on, if there is one. -/
def fromFirst? (s part : Bytes) : Option Bytes :=
  match s with
  | [] => if part.isEmpty then some [] else none
  | _ :: rest => if startsWith s part then some s else fromFirst? rest part

/-- The text in front of the first occurrence of `part`, if there is one. -/
def beforeFirst? (s part : Bytes) : Option Bytes :=
  (fromFirst? s part).map fun rest => s.take (s.length - rest.length)

/-- Copies `s`, writing `new` for each occurrence of `a` followed by `b`, from left to right. -/
def replacePair (a b : UInt8) (new : Bytes) : Bytes → Bytes
  | x :: y :: rest =>
    if x == a && y == b then new ++ replacePair a b new rest
    else x :: replacePair a b new (y :: rest)
  | s => s

/-- Copies `s`, writing `new` for each octet `a`. -/
def replaceByte (a : UInt8) (new : Bytes) (s : Bytes) : Bytes :=
  s.flatMap fun b => if b == a then new else [b]

/-- Whether `a` comes before `b` in the order of their octets. -/
def lt : Bytes → Bytes → Bool
  | [], [] => false
  | [], _ :: _ => true
  | _ :: _, [] => false
  | x :: xs, y :: ys => if x == y then lt xs ys else x < y

/-- Byte order, with equal texts in order. -/
def le (a b : Bytes) : Bool := !lt b a

/-- `s` under a condition, and nothing otherwise. -/
def onlyIf (condition : Bool) (s : Bytes) : Bytes := if condition then s else []

/-- `s` followed by spaces up to `width` octets. -/
def padRight (width : Nat) (s : Bytes) : Bytes := s ++ List.replicate (width - s.length) 32

end Bytes

end UiCodegen
