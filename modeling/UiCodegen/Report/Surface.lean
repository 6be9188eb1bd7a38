import UiCodegen.Report.Table
import UiCodegen.Text.Terminal
import UiCodegen.Text.Title

/-!
# What reports are written to

A report goes to two streams, results and messages.  Its form depends on the chosen format and on
whether the results are shown on a terminal.
-/

namespace UiCodegen.Report

/-- The format of a report. -/
inductive Format where
  /-- Text on a terminal, Markdown otherwise. -/
  | auto
  | text
  | markdown
  | json
  /-- No known format; reports treat it as text. -/
  | other (name : Bytes)
  deriving DecidableEq, Repr

namespace Format

def name : Format → Bytes
  | auto => "auto"
  | text => "text"
  | markdown => "markdown"
  | json => "json"
  | other name => name

def known : List Format := [auto, text, markdown, json]

/-- The format with a name; no name stands for `auto`. -/
def ofName (name : Bytes) : Format :=
  if name.isEmpty then auto else (known.find? (·.name == name)).getD (other name)

def isKnown (f : Format) : Bool := known.contains f

end Format

/-- The text of both streams. -/
structure Printed where
  results : Bytes := []
  messages : Bytes := []
  deriving DecidableEq, Repr

instance : Append Printed := ⟨fun a b => ⟨a.results ++ b.results, a.messages ++ b.messages⟩⟩

namespace Printed

def result (s : Bytes) : Printed := { results := s }

def resultLine (s : Bytes) : Printed := { results := s ++ [10] }

def messageLine (s : Bytes) : Printed := { messages := s ++ [10] }

def all (parts : List Printed) : Printed := parts.foldl (· ++ ·) {}

end Printed

/-- What a report is written to. -/
structure Surface where
  format : Format := .auto
  terminal : Bool := false
  deriving DecidableEq, Repr

namespace Surface

variable (t : Surface)

def effective : Format :=
  match t.format with
  | .auto => if t.terminal then .text else .markdown
  | f => f

def squared (lines : List Bytes) : List Bytes :=
  let width := (lines.map Terminal.columns).foldl max 0
  lines.map fun line => line ++ List.replicate (width - Terminal.columns line) 32

/-- A text as it is shown: tabs are expanded.  A terminal shows a block of lines of one width. -/
def styled (s : Bytes) : Bytes :=
  let s := expandTabs s
  if t.terminal then Bytes.join "\n" (squared (Bytes.splitOn 10 (Bytes.replacePair 13 10 "\n" s)))
  else s

def withMargin (s : Bytes) : Bytes :=
  let width := ((Bytes.splitOn 10 s).map Terminal.columns).foldl max 0
  s ++ (10 :: List.replicate width 32)

def markdownHeading (level : Int) (s : Bytes) : Bytes :=
  List.replicate (max level 1).toNat 35 ++ (32 :: Title.titled s)

def markdownItem (key value : Bytes) : Bytes := "- **" ++ key ++ ":** " ++ value

def heading (level : Int) (s : Bytes) : Printed :=
  if t.effective == .markdown then .result (markdownHeading level s ++ "\n\n")
  else
    let shown := t.styled (Title.titled s)
    .resultLine (if t.terminal && level ≤ 1 then withMargin shown else shown)

def success (s : Bytes) : Printed := .resultLine (t.styled ("✓ " ++ s))

def warning (s : Bytes) : Printed := .messageLine (t.styled ("! " ++ s))

def failure (s : Bytes) : Printed := .messageLine (t.styled ("✗ " ++ s))

def table (t : Surface) (header : List Bytes) (rows : List (List Bytes)) : Printed :=
  let table : Table := { header := header.map Title.titled, rows }
  .result (if t.effective == .markdown then table.markdown else table.box)

end Surface

end UiCodegen.Report
