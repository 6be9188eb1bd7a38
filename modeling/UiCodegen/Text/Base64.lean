import UiCodegen.Bytes

/-!
# Base 64

Octets written with 64 signs, four of them for three octets.  The last group is filled up with `=`;
line breaks do not count.
-/

namespace UiCodegen.Base64

def digit? (b : UInt8) : Option Nat :=
  if Bytes.isUpper b then some (b.toNat - 65)
  else if Bytes.isLower b then some (b.toNat - 71)
  else if Bytes.isDigit b then some (b.toNat + 4)
  else if b == 43 then some 62
  else if b == 47 then some 63
  else none

/-- The octets of groups of four signs.  Only the last group may be filled up, by one `=` or two;
what its last sign holds beyond whole octets is dropped. -/
def groups? : Bytes → Option Bytes
  | [] => some []
  | [a, b, 61, 61] => do
    let n := (← digit? a) * 64 + (← digit? b)
    return [(n / 16).toUInt8]
  | [a, b, c, 61] => do
    let n := ((← digit? a) * 64 + (← digit? b)) * 64 + (← digit? c)
    return [(n / 1024).toUInt8, (n / 4 % 256).toUInt8]
  | a :: b :: c :: d :: rest => do
    let n := (((← digit? a) * 64 + (← digit? b)) * 64 + (← digit? c)) * 64 + (← digit? d)
    return (n / 65536).toUInt8 :: (n / 256 % 256).toUInt8 :: (n % 256).toUInt8 :: (← groups? rest)
  | _ => none

def decode? (s : Bytes) : Option Bytes := groups? (s.filter fun b => b != 13 && b != 10)

end UiCodegen.Base64
