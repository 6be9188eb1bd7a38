import UiCodegen.Text.Integer

/-!
# C literals and comments

String literals for arbitrary bytes, and text made safe for a block comment.

A literal is written so that every conforming reader recovers the bytes: quotes, backslashes and
control octets are escaped, and no two question marks stand side by side, so trigraph replacement
finds nothing to replace.  Control octets are written with exactly three octal digits, so that a
digit behind one is never taken into the escape.
-/

namespace UiCodegen.C

/-- How one octet of a string literal is written when `next` follows it. -/
def escapeOctet (c : UInt8) (next : Option UInt8) : Bytes :=
  if c == 34 then [92, 34]
  else if c == 92 then [92, 92]
  else if c == 10 then [92, 110]
  else if c == 13 then [92, 114]
  else if c == 9 then [92, 116]
  else if c == 63 then if next == some 63 then [63, 92] else [63]
  else if c < 0x20 || c == 0x7F then 92 :: Integer.fixedWidth 8 3 c.toNat
  else [c]

def escape : Bytes → Bytes
  | [] => []
  | c :: rest => escapeOctet c rest.head? ++ escape rest

/-- A string literal that denotes `s`. -/
def quote (s : Bytes) : Bytes := 34 :: escape s ++ [34]

/-- `s` with nothing in it that ends a block comment or the line it stands on. -/
def commentSafe (s : Bytes) : Bytes :=
  Bytes.replaceByte 10 " " (Bytes.replacePair 42 47 "* /" s)

/-- A call of `fn` with the given argument texts. -/
def call (fn : Bytes) (args : List Bytes) : Bytes := fn ++ "(" ++ Bytes.join ", " args ++ ")"

end UiCodegen.C
