import UiCodegen.Text.Category

/-!
# Printable characters

The code points that messages show as themselves: letters, marks, numbers, punctuation, symbols and
the plain space.
-/

namespace UiCodegen.Printable

/-- The first letters of the categories whose members are printable. -/
def categories : Bytes := "LMNPS"

/-- Whether messages show a code point as itself. -/
def isPrintable (code : Nat) : Bool :=
  if code < 0x7f then 0x20 ≤ code else (Category.ofCode code).head?.any categories.contains

end UiCodegen.Printable
