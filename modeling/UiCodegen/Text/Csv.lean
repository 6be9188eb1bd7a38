import UiCodegen.Text.Blank

/-!
# Comma-separated lists

The first record of a text of comma-separated values, and a record as a text.  A field may stand in
quotes; it may then hold commas, line breaks, and quotes that are written twice.  Empty lines in
front of the record are skipped.

The text is read octet by octet.  A line break counts as part of its line: the next line begins with
the octet behind it.
-/

namespace UiCodegen.Csv

/-- What is wrong with a record. -/
inductive Cause where
  /-- A quote in a field that does not begin with one. -/
  | bareQuote
  /-- A quoted field that does not end properly. -/
  | badQuote
  deriving DecidableEq, Repr

/-- Why there is no record. -/
inductive Fault where
  | empty
  /-- A record that starts on line `start` is malformed at a place. -/
  | malformed (start line column : Nat) (cause : Cause)
  deriving DecidableEq, Repr

def Cause.message : Cause → Bytes
  | bareQuote => "bare \" in non-quoted-field"
  | badQuote => "extraneous or missing \" in quoted-field"

def Fault.message : Fault → Bytes
  | empty => "EOF"
  | malformed start line column cause =>
    Bytes.onlyIf (start != line) ("record on line " ++ Bytes.ofNat start ++ "; ") ++
    "parse error on line " ++ Bytes.ofNat line ++ ", column " ++ Bytes.ofNat column ++ ": " ++
    cause.message

/-- Where in a field the reader is. -/
inductive Phase where
  | start
  /-- In a field without quotes. -/
  | bare
  | quoted
  | closing
  deriving DecidableEq, Repr

/-- What was read of a record. -/
structure Reader where
  phase : Phase := .start
  /-- The complete fields, last first. -/
  fields : List Bytes := []
  /-- The octets of the current field, last first. -/
  field : Bytes := []
  first : Nat := 1
  line : Nat := 1
  column : Nat := 1
  afterBreak : Bool := false

namespace Reader

variable (r : Reader)

def endField : Reader :=
  { r with fields := r.field.reverse :: r.fields, field := [], phase := .start }

def record : Except Fault (List Bytes) :=
  match r.phase with
  | .quoted => .error (.malformed r.first r.line r.column .badQuote)
  | _ => .ok r.endField.fields.reverse

def add (b : UInt8) (phase : Phase) : Reader := { r with field := b :: r.field, phase }

/-- Moves to the line that begins with the next octet, if a line break was passed. -/
def place : Reader :=
  if r.afterBreak then { r with line := r.line + 1, column := 1, afterBreak := false } else r

/-- Reads the next octet: goes on with the record, or ends it. -/
def step (b : UInt8) : Except Fault (Reader × Bool) :=
  let next (r : Reader) : Except Fault (Reader × Bool) :=
    .ok ({ r with column := r.column + 1, afterBreak := b == 10 }, false)
  match r.phase with
  | .start | .bare =>
    if b == 10 then .ok (r, true)
    else if b == 44 then next r.endField
    else if b == 34 then
      if r.phase == .start then next { r with phase := .quoted }
      else .error (.malformed r.first r.line r.column .bareQuote)
    else next (r.add b .bare)
  | .quoted => if b == 34 then next { r with phase := .closing } else next (r.add b .quoted)
  | .closing =>
    if b == 34 then next (r.add b .quoted)
    else if b == 44 then next r.endField
    else if b == 10 then .ok (r, true)
    else .error (.malformed r.first r.line (r.column - 1) .badQuote)

def run (r : Reader) : Bytes → Except Fault (List Bytes)
  | [] => r.record
  | b :: rest =>
    match r.place.step b with
    | .error fault => .error fault
    | .ok (r, true) => r.record
    | .ok (r, false) => run r rest

end Reader

def record (s : Bytes) : Except Fault (List Bytes) :=
  let s := Bytes.replacePair 13 10 "\n" (if Bytes.endsWith s "\r" then s.dropLast else s)
  let blank := s.takeWhile (· == 10)
  let body := s.drop blank.length
  if body.isEmpty then .error .empty
  else ({ first := blank.length + 1, line := blank.length + 1 } : Reader).run body

def needsQuotes (field : Bytes) : Bool :=
  field == "\\." || (field.any fun b => b == 10 || b == 13 || b == 34 || b == 44) ||
    Blank.leading field != 0

def writeField (field : Bytes) : Bytes :=
  if needsQuotes field then 34 :: Bytes.replaceByte 34 "\"\"" field ++ [34] else field

def write (fields : List Bytes) : Bytes := Bytes.join "," (fields.map writeField)

/-- The fields that are read back when a record has been written.  A single empty field is lost, and
CR in front of a line break too. -/
def reread (fields : List Bytes) : List Bytes :=
  match record (write fields) with
  | .ok fields => fields
  | .error _ => []

end UiCodegen.Csv
