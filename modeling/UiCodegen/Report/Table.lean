import UiCodegen.Text.Case
import UiCodegen.Text.Utf8
import UiCodegen.Text.Width

/-!
# Tables

A table has a header and rows; a row may have fewer cells than there are columns.  It is drawn as a
box, or written as a table of Markdown.
-/

namespace UiCodegen.Report

/-- A table. -/
structure Table where
  header : List Bytes := []
  rows : List (List Bytes) := []
  deriving DecidableEq, Repr

/-- A text with four spaces for each tab. -/
def expandTabs (s : Bytes) : Bytes := Bytes.replaceByte 9 "    " s

namespace Table

variable (t : Table)

/-! ## Cells -/

/-- The text of a cell as it is shown: with four spaces for each tab, and without carriage returns.
-/
def shownCell (cell : Bytes) : Bytes := (expandTabs cell).filter (· != 13)

def shown : Table where
  header := t.header.map shownCell
  rows := t.rows.map (·.map shownCell)

def columnCount : Nat := ((t.header :: t.rows).map (·.length)).foldl max 0

def hasCells (column : Nat) : Bool := t.rows.any (column < ·.length)

def cellLines (cell : Bytes) : List Bytes := Bytes.splitOn 10 cell

def lineWidth (line : Bytes) : Nat := Width.ofCodes (Utf8.codes line)

def columnWidth (column : Nat) : Nat :=
  ((t.header :: t.rows).map fun row =>
    ((cellLines (row.getD column [])).map lineWidth).foldl max 0).foldl max 0

/-! ## Markdown -/

def markdownCell (cell : Bytes) : Bytes :=
  Bytes.replaceByte 10 "<br/>" (Bytes.replaceByte 124 "\\|" cell)

def columnIndices : List Nat := List.range t.columnCount

def markdownRow (row : List Bytes) : Bytes :=
  let cells := t.columnIndices.map fun i => (" " ++ markdownCell (row.getD i []) ++ " |" : Bytes)
  "|" ++ cells.flatten ++ "\n"

/-- The line below the header.  A column without cells is marked as aligned to the right. -/
def markdownRule : Bytes :=
  "|" ++ t.columnIndices.flatMap (fun i =>
    Bytes.ofString (if t.hasCells i then " --- |" else " ---:|")) ++ "\n"

def markdown (table : Table) : Bytes :=
  let t := table.shown
  if t.columnCount == 0 then []
  else t.markdownRow t.header ++ t.markdownRule ++ t.rows.flatMap t.markdownRow

/-! ## Boxes -/

/-- Letters in capitals, but nothing inside a colour sequence. -/
def capitals (line : Bytes) : Bytes :=
  Utf8.ofCodes ((Width.markSequences false (Utf8.codes line)).map fun (code, inSequence) =>
    if inSequence then code else Case.upper code)

/-- A line of a cell, filled up with spaces to the width of its column. -/
def aligned (right : Bool) (width : Nat) (line : Bytes) : Bytes :=
  let line := if right then line.dropWhile (· == 32) else Bytes.dropEndWhile (· == 32) line
  let fill := List.replicate (width - lineWidth line) 32
  if right then fill ++ line else line ++ fill

/-- A line across the box: a bar for each column, between marks. -/
def boxRule (left middle right : Bytes) : Bytes :=
  left ++ Bytes.join middle (t.columnIndices.map fun i =>
    (List.replicate (t.columnWidth i + 2) (Bytes.ofString "─")).flatten) ++ right ++ "\n"

def boxLine (cells : List Bytes) : Bytes :=
  let parts := t.columnIndices.map fun i =>
    aligned (!t.hasCells i) (t.columnWidth i) (cells.getD i [])
  "│ " ++ Bytes.join " │ " parts ++ " │\n"

/-- The lines of a row, as many as its tallest cell has.  A row without cells has none. -/
def boxRow (inCapitals : Bool) (row : List Bytes) : Bytes :=
  if row.isEmpty then []
  else
    let cells := row.map cellLines
    let height := (cells.map (·.length)).foldl max 0
    (List.range height).flatMap fun n =>
      t.boxLine (cells.map fun lines =>
        let line := lines.getD n []
        if inCapitals then capitals line else line)

/-- A table in a box, with its header in capitals; nothing if there are no columns. -/
def box (table : Table) : Bytes :=
  let t := table.shown
  if t.columnCount == 0 then []
  else
    t.boxRule "┌" "┬" "┐" ++ t.boxRow true t.header ++ t.boxRule "├" "┼" "┤" ++
    t.rows.flatMap (t.boxRow false) ++ t.boxRule "└" "┴" "┘"

end Table

end UiCodegen.Report
