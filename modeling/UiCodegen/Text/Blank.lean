import UiCodegen.Text.Utf8

/-!
# White space

The characters with the Unicode property White_Space, trimming them from the ends of a text, and
splitting a text into the words between them.  A stray octet is never white space.
-/

namespace UiCodegen.Blank

def isBlank (code : Nat) : Bool :=
  (9 ≤ code && code ≤ 13) || code == 0x20 || code == 0x85 || code == 0xA0 || code == 0x1680 ||
  (0x2000 ≤ code && code ≤ 0x200A) || code == 0x2028 || code == 0x2029 || code == 0x202F ||
  code == 0x205F || code == 0x3000

/-- The number of octets of the white-space character that begins the text; zero if none does. -/
def leading (s : Bytes) : Nat :=
  match Utf8.first? s with
  | some (code, size) => if isBlank code then size else 0
  | none => 0

/-- Drops `skip` octets and then the white space at the front. -/
def dropLeading : Nat → Bytes → Bytes
  | _, [] => []
  | skip + 1, _ :: rest => dropLeading skip rest
  | 0, b :: rest =>
    match leading (b :: rest) with
    | 0 => b :: rest
    | n + 1 => dropLeading n rest

/-- The text without the white space at its front. -/
def trimStart (s : Bytes) : Bytes := dropLeading 0 s

/-- The number of octets of the white-space character that ends a text, given last octet first;
zero if none does.  An encoding has at most three octets here, and none is the end of a longer
one. -/
def trailing : Bytes → Nat
  | [] => 0
  | [c] => leading [c]
  | [c, b] => if leading [c] == 1 then 1 else if leading [b, c] == 2 then 2 else 0
  | c :: b :: a :: _ =>
    if leading [c] == 1 then 1
    else if leading [b, c] == 2 then 2
    else if leading [a, b, c] == 3 then 3
    else 0

/-- Drops `skip` octets and then the white space at the end of a text given last octet first. -/
def dropTrailing : Nat → Bytes → Bytes
  | _, [] => []
  | skip + 1, _ :: rest => dropTrailing skip rest
  | 0, b :: rest =>
    match trailing (b :: rest) with
    | 0 => b :: rest
    | n + 1 => dropTrailing n rest

/-- The text without the white space at its end. -/
def trimEnd (s : Bytes) : Bytes := (dropTrailing 0 s.reverse).reverse

/-- The text without the white space at either end. -/
def trim (s : Bytes) : Bytes := trimEnd (trimStart s)

/-- Collects words: `word` is the one being read, `words` the finished ones, both last first, and
`skip` octets belong to a character that has been dealt with. -/
def wordsFrom (words : List Bytes) (word : Bytes) : Nat → Bytes → List Bytes
  | _, [] => (if word.isEmpty then words else word.reverse :: words).reverse
  | skip + 1, _ :: rest => wordsFrom words word skip rest
  | 0, b :: rest =>
    match leading (b :: rest) with
    | 0 => wordsFrom words (b :: word) 0 rest
    | n + 1 => wordsFrom (if word.isEmpty then words else word.reverse :: words) [] n rest

/-- The words of a text: its longest parts without white space, in order. -/
def words (s : Bytes) : List Bytes := wordsFrom [] [] 0 s

end UiCodegen.Blank
