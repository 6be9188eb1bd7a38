import UiCodegen.C.Literal

/-!
# Indented source text

A writer accumulates C source and puts four spaces per level in front of what begins a line.  It
holds the text, the level and a flag that says whether the next piece begins a line; the flag
follows the operations (`put` clears it even for an empty piece, `raw` sets it for an empty one), it
is not recomputed from the text.
-/

namespace UiCodegen.C

/-- A buffer of indented source text. -/
structure Writer where
  output : Array UInt8 := #[]
  depth : Nat := 0
  lineStart : Bool := true
  deriving DecidableEq, Repr

namespace Writer

variable (w : Writer)

def empty : Writer := {}

def text : Bytes := w.output.toList

def length : Nat := w.output.size

/-- Whether nothing has been written. -/
def isEmpty (w : Writer) : Bool := w.output.isEmpty

def indentation : Bytes := List.replicate (w.depth * 4) 32

/-- Writes a piece of a line, indented if it begins one. -/
def put (s : Bytes) : Writer :=
  let begins := match s with
    | [] => false
    | c :: _ => w.lineStart && c != 10
  let output := if begins then w.output ++ w.indentation else w.output
  { w with output := output ++ s, lineStart := false }

def newline : Writer := { w with output := w.output.push 10, lineStart := true }

def line (s : Bytes) : Writer := (w.put s).newline

def blank : Writer := w.newline

/-- Writes `s` as it is, without indentation. -/
def raw (s : Bytes) : Writer :=
  { w with output := w.output ++ s, lineStart := s.isEmpty || s.getLast? == some 10 }

/-- Writes pieces, all but the last of which end a line. -/
def writePieces (w : Writer) : List Bytes → Writer
  | [] => w
  | [last] => if last.isEmpty then w else w.put last
  | piece :: pieces => writePieces (w.line piece) pieces

/-- Writes text of any number of lines, each indented. -/
def write (s : Bytes) : Writer := w.writePieces (Bytes.splitOn 10 s)

def indent : Writer := { w with depth := w.depth + 1 }

/-- One level back, as long as there is one. -/
def dedent : Writer := { w with depth := w.depth - 1 }

/-- Opens a block behind `head`, writes the body one level deeper, and closes the block with `tail`
behind the brace. -/
def block (head : Bytes) (body : Writer → Writer) (tail : Bytes) : Writer :=
  (body (w.line (head ++ " \x7b")).indent).dedent.line ("\x7d" ++ tail)

def comment (s : Bytes) : Writer := w.line ("/* " ++ commentSafe s ++ " */")

/-- Writes the content of another buffer, indented line by line. -/
def append (w other : Writer) : Writer := if other.isEmpty then w else w.write other.text

/-- Writes items with `, ` between them on the current line. -/
def list (w : Writer) : List Bytes → Writer
  | [] => w
  | [item] => w.put item
  | item :: items => list ((w.put item).put ", ") items

def lines (ls : List Bytes) : Writer := ls.foldl line w

end Writer

/-- The named buffers of one generation run. -/
structure Buffers where
  /-- Static arrays, interned strings and styles, at file scope. -/
  predecl : Writer := {}
  /-- Locals declared at the top of the generated function. -/
  decl : Writer := Writer.empty.indent
  /-- The body of the generated function. -/
  impl : Writer := Writer.empty.indent
  /-- Functions at file scope. -/
  globals : Writer := {}
  deriving DecidableEq, Repr

end UiCodegen.C
