import UiCodegen.Text.Integer
import UiCodegen.Text.Printable
import UiCodegen.Text.Utf8

/-!
# Quoted text in messages

Text between double quotes, with escapes for quotes, backslashes and everything that is not
printable. Octets that are no part of a character are written by value, so the quoted text is always
printable and tells any two texts apart.
-/

namespace UiCodegen.Quoted

def escape : Utf8.Symbol → Bytes
  | .stray octet => "\\x" ++ Integer.fixedWidth 16 2 octet.toNat
  | .char code =>
    if code == 34 then "\\\""
    else if code == 92 then "\\\\"
    else if Printable.isPrintable code then Utf8.encode code
    else if code == 7 then "\\a"
    else if code == 8 then "\\b"
    else if code == 12 then "\\f"
    else if code == 10 then "\\n"
    else if code == 13 then "\\r"
    else if code == 9 then "\\t"
    else if code == 11 then "\\v"
    else if code < 0x20 || code == 0x7F then "\\x" ++ Integer.fixedWidth 16 2 code
    else if code < 0x10000 then "\\u" ++ Integer.fixedWidth 16 4 code
    else "\\U" ++ Integer.fixedWidth 16 8 code

def body (s : Bytes) : Bytes := (Utf8.symbols s).flatMap escape

def quote (s : Bytes) : Bytes := "\"" ++ body s ++ "\""

/-- A single octet, read as the code point of the same number, between single quotes. -/
def quoteOctet (b : UInt8) : Bytes :=
  if b == 39 then "'\\''"
  else if b == 34 then "'\"'"
  else "'" ++ escape (.char b.toNat) ++ "'"

end UiCodegen.Quoted
