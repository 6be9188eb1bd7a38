import UiCodegen.Bytes

/-!
# Templates

The fixed parts of the interpreter are written as one text each, with an indentation of one blank
where the generated source has four, and with the digraphs `<%` and `%>` for braces.
-/

namespace UiCodegen.Interpreter.Source

/-- A line of the generated source.  Each blank that begins a line stands for four, except in front
of the star with which a comment goes on. -/
def indented (line : Bytes) : Bytes :=
  if Bytes.startsWith line " * " then line
  else
    let depth := (line.takeWhile (· == 32)).length
    List.replicate (4 * depth) 32 ++ line.drop depth

/-- Puts braces for digraphs. -/
def braced : Bytes → Bytes
  | 60 :: 37 :: rest => 123 :: braced rest
  | 37 :: 62 :: rest => 125 :: braced rest
  | b :: rest => b :: braced rest
  | [] => []

/-- The lines of a template. -/
def lines (template : String) : List Bytes :=
  (Bytes.splitOn 10 (braced template)).map indented

end UiCodegen.Interpreter.Source
