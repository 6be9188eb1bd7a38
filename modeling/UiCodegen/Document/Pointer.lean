import UiCodegen.Bytes

/-!
# Pointers into documents

The path from the root of a document to one of its values: object keys and array positions.  A
pointer is printed with `/` in front of each step, with `~` and `/` inside a step written `~0` and
`~1`.
-/

namespace UiCodegen

/-- A path from the root of a document; the empty path is the root itself. -/
structure Pointer where
  /-- The steps from the root on, last one first, so that a step is added in front. -/
  reversed : List Bytes := []
  deriving DecidableEq, Repr, Inhabited

namespace Pointer

def root : Pointer := {}

/-- The member `key` of the object at `p`. -/
def key (p : Pointer) (key : Bytes) : Pointer := ⟨key :: p.reversed⟩

/-- The element `i` of the array at `p`. -/
def index (p : Pointer) (i : Int) : Pointer := ⟨Bytes.ofInt i :: p.reversed⟩

def escapeOctet (b : UInt8) : Bytes :=
  if b == 126 then [126, 48] else if b == 47 then [126, 49] else [b]

def escape (token : Bytes) : Bytes := token.flatMap escapeOctet

def tokens (p : Pointer) : List Bytes := p.reversed.reverse

def text (p : Pointer) : Bytes := p.tokens.flatMap fun token => 47 :: escape token

/-- The text of a pointer for messages, with `/` for the root. -/
def display (p : Pointer) : Bytes :=
  match p.text with
  | [] => "/"
  | text => text

end Pointer

end UiCodegen
