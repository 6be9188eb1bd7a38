import UiCodegen.Document.Yaml.Cursor
import UiCodegen.Text.Utf8

/-!
# Scalars of YAML

The text of plain, quoted and block scalars, with the folding of line breaks: a single break between
two lines becomes a space, further ones are kept.
-/

namespace UiCodegen.Document.Yaml

/-! ## Folding -/

/-- The text of a scalar so far, with the blanks and breaks that have not been settled. -/
structure Folding where
  /-- The text, last character first. -/
  text : List Nat := []
  blanks : List Nat := []
  leading : List Nat := []
  trailing : List Nat := []
  broken : Bool := false
  deriving Repr

namespace Folding

/-- Settles what was passed: breaks are folded, blanks of a line are kept. -/
def settle (f : Folding) : Folding :=
  let between :=
    if f.broken then
      if f.leading.head? == some 10 then (if f.trailing.isEmpty then [32] else f.trailing)
      else f.leading ++ f.trailing
    else f.blanks
  { text := between.reverse ++ f.text }

def add (f : Folding) (codes : List Nat) : Folding := { f with text := codes.reverse ++ f.text }

def bytes (f : Folding) : Bytes := Utf8.ofCodes f.text.reverse

/-- Passes blanks and line breaks.  With an indentation, a tab in front of it is a fault. -/
def passGap (start : Nat) (indent : Option Int) :
    (steps : Nat) → Cursor → Folding → Except Stop (Cursor × Folding)
  | 0, c, f => .ok (c, f)
  | steps + 1, c, f =>
    match c.next with
    | none => .ok (c, f)
    | some code =>
      if isBlank code then
        if f.broken then
          if code == 9 && (indent.map fun i => decide ((c.column : Int) < i)).getD false then
            .error (c.stop start "found a tab character that violates indentation")
          else passGap start indent steps ((c.pass 1).need 1) f
        else passGap start indent steps ((c.pass 1).need 1) { f with blanks := f.blanks ++ [code] }
      else if isBreak code then
        if f.broken then
          passGap start indent steps (c.passBreak.need 1)
            { f with trailing := f.trailing ++ c.breakText }
        else
          passGap start indent steps (c.passBreak.need 1)
            { f with blanks := [], leading := c.breakText, broken := true }
      else .ok (c, f)

end Folding

def markReach : Nat := 4

/-! ## Plain scalars -/

def isFlowEnd (c : Nat) : Bool :=
  c == 44 || c == 63 || c == 91 || c == 93 || c == 123 || c == 125

/-- The characters of a plain scalar up to a blank, break or indicator. -/
def plainRun (inFlow : Bool) : List Nat → List Nat
  | [] => []
  | c :: rest =>
    if isBlank c || isBreak c || (c == 58 && isGap rest.head?) || (inFlow && isFlowEnd c) then []
    else c :: plainRun inFlow rest

/-- Reads a plain scalar in lines indented by at least `indent`. -/
def plainScalar (start : Nat) (inFlow : Bool) (indent : Int) :
    (steps : Nat) → Cursor → Folding → Except Stop (Cursor × Folding)
  | 0, c, f => .ok (c, f)
  | steps + 1, c, f =>
    let c := c.need markReach
    if c.atDocumentMark || c.at_ 35 then .ok (c, f)
    else
      let run := plainRun inFlow c.rest
      let f := if run.isEmpty then f else f.settle.add run
      let c := c.passSeeing 2 run.length
      if c.rest.isEmpty || !isGap c.next then .ok (c, f)
      else match Folding.passGap start (some indent) c.left c f with
        | .error stop => .error stop
        | .ok (c, f) =>
          if !inFlow && (c.column : Int) < indent then .ok (c, f)
          else plainScalar start inFlow indent steps c f

/-! ## Quoted scalars -/

def escapeCode? (c : Nat) : Option Nat :=
  if c == 48 then some 0
  else if c == 97 then some 7
  else if c == 98 then some 8
  else if c == 116 || c == 9 then some 9
  else if c == 110 then some 10
  else if c == 118 then some 11
  else if c == 102 then some 12
  else if c == 114 then some 13
  else if c == 101 then some 27
  else if c == 32 || c == 34 || c == 39 || c == 92 then some c
  else if c == 78 then some 0x85
  else if c == 95 then some 0xA0
  else if c == 76 then some 0x2028
  else if c == 80 then some 0x2029
  else none

def escapeLength (c : Nat) : Nat :=
  if c == 120 then 2 else if c == 117 then 4 else if c == 85 then 8 else 0

def hexValue? (c : Nat) : Option Nat :=
  if 48 ≤ c && c ≤ 57 then some (c - 48)
  else if 97 ≤ c && c ≤ 102 then some (c - 87)
  else if 65 ≤ c && c ≤ 70 then some (c - 55)
  else none

/-- The value of exactly `n` hexadecimal digits at the front of a text. -/
def hexNumber? (n : Nat) (codes : List Nat) : Option Nat :=
  let digits := codes.take n
  if digits.length < n then none
  else digits.foldl (fun value c => do return (← value) * 16 + (← hexValue? c)) (some 0)

/-- How a run of characters of a quoted scalar ended. -/
inductive RunEnd where
  /-- At a blank, a break, or the closing quote. -/
  | plain
  | escapedBreak
  deriving DecidableEq, Repr

def escapedCode (start : Nat) (c : Cursor) (letter : Nat) : Except Stop (Nat × Cursor) :=
  match escapeCode? letter with
  | some code => .ok (code, c.pass 2)
  | none =>
    match escapeLength letter with
    | 0 => .error (c.stop start "found unknown escape character")
    | n =>
      let behind := (c.pass 2).need n
      match hexNumber? n behind.rest with
      | none => .error (behind.stop start "did not find expected hexdecimal number")
      | some code =>
        if (0xD800 ≤ code && code ≤ 0xDFFF) || 0x10FFFF < code then
          .error (behind.stop start "found invalid Unicode character escape code")
        else .ok (code, behind.pass n)

/-- Reads characters of a quoted scalar up to a blank, a break or the closing quote. -/
def quotedRun (start : Nat) (single : Bool) :
    (steps : Nat) → Cursor → Folding → Except Stop (Cursor × Folding × RunEnd)
  | 0, c, f => .ok (c, f, .plain)
  | steps + 1, c, f =>
    let c := c.need 2
    match c.rest with
    | [] => .ok (c, f, .plain)
    | code :: rest =>
      if isBlank code || isBreak code then .ok (c, f, .plain)
      else if single && code == 39 then
        if rest.head? == some 39 then quotedRun start single steps (c.pass 2) (f.add [39])
        else .ok (c, f, .plain)
      else if !single && code == 34 then .ok (c, f, .plain)
      else if !single && code == 92 then
        match rest.head? with
        | none => .error (c.stop start "found unknown escape character")
        | some letter =>
          if isBreak letter then .ok (((c.need 3).pass 1).passBreak, f, .escapedBreak)
          else match escapedCode start c letter with
            | .error stop => .error stop
            | .ok (code, c) => quotedRun start single steps c (f.add [code])
      else quotedRun start single steps (c.pass 1) (f.add [code])

def quotedScalar (start : Nat) (single : Bool) :
    (steps : Nat) → Cursor → Folding → Except Stop (Cursor × Folding)
  | 0, c, _ => .error (c.stop start "found unexpected end of stream")
  | steps + 1, c, f =>
    let c := c.need markReach
    if c.atDocumentMark then .error (c.stop start "found unexpected document indicator")
    else if c.rest.isEmpty then .error (c.stop start "found unexpected end of stream")
    else match quotedRun start single (c.left + 1) c f with
      | .error stop => .error stop
      | .ok (c, f, ended) =>
        if ended == .plain && c.at_ (if single then 39 else 34) then .ok (c.pass 1, f)
        else
          let f := { f with broken := ended == .escapedBreak }
          match Folding.passGap start none (c.left + 1) (c.need 1) f with
          | .error stop => .error stop
          | .ok (c, f) => quotedScalar start single steps c f.settle

/-! ## Block scalars -/

/-- What happens to the line breaks at the end of a block scalar. -/
inductive Chomping where
  | strip | clip | keep
  deriving DecidableEq, Repr

def chomping? (c : Option Nat) : Option Chomping :=
  if c == some 43 then some .keep else if c == some 45 then some .strip else none

def digitValue? (c : Option Nat) : Option Nat :=
  c.bind fun code => if 48 ≤ code && code ≤ 57 then some (code - 48) else none

/-- The indicators behind `|` or `>`, in either order: chomping, and an indentation above zero. -/
def blockHeader (start : Nat) (c : Cursor) : Except Stop (Cursor × Chomping × Nat) :=
  let zero (c : Cursor) : Except Stop (Cursor × Chomping × Nat) :=
    .error (c.stop start "found an indentation indicator equal to 0")
  match chomping? c.next with
  | some chomping =>
    let c := (c.pass 1).need 1
    match digitValue? c.next with
    | some 0 => zero c
    | some n => .ok (c.pass 1, chomping, n)
    | none => .ok (c, chomping, 0)
  | none =>
    match digitValue? c.next with
    | some 0 => zero c
    | some n =>
      let c := (c.pass 1).need 1
      match chomping? c.next with
      | some chomping => .ok (c.pass 1, chomping, n)
      | none => .ok (c, .clip, n)
    | none => .ok (c, .clip, 0)

/-- Passes the indentation and the empty lines in front of a line of a block scalar.  While `indent`
is zero every space counts.  Yields the breaks passed and the largest column reached. -/
def blockBreaks (start indent : Nat) :
    (steps : Nat) → Cursor → (breaks : List Nat) → (widest : Nat) →
    Except Stop (Cursor × List Nat × Nat)
  | 0, c, breaks, widest => .ok (c, breaks, widest)
  | steps + 1, c, breaks, widest =>
    let c := c.need 1
    let spaces := (c.rest.takeWhile (· == 32)).length
    let c := c.passSeeing 1 (if indent == 0 then spaces else min spaces (indent - c.column))
    let widest := max widest c.column
    if (indent == 0 || c.column < indent) && c.at_ 9 then
      .error (c.stop start "found a tab character where an indentation space is expected")
    else if c.rest.isEmpty || !isLineEnd c.next then .ok (c, breaks, widest)
    else blockBreaks start indent steps c.passBreak (breaks ++ c.breakText) widest

/-- The lines of a block scalar that are indented by `indent`. -/
def blockLines (start indent : Nat) (literal : Bool) :
    (steps : Nat) → Cursor → (text leading trailing : List Nat) → (afterBlank : Bool) →
    Except Stop (Cursor × List Nat × List Nat × List Nat)
  | 0, c, text, leading, trailing, _ => .ok (c, text, leading, trailing)
  | steps + 1, c, text, leading, trailing, afterBlank =>
    if c.column != indent || c.rest.isEmpty then .ok (c, text, leading, trailing)
    else
      let blank := (c.next.map isBlank).getD false
      let between :=
        if !literal && !afterBlank && !blank && leading.head? == some 10 then
          if trailing.isEmpty then [32] else []
        else leading
      let line := c.rest.takeWhile (!isBreak ·)
      let text := line.reverse ++ (trailing.reverse ++ (between.reverse ++ text))
      let c := (c.passSeeing 1 line.length).need 2
      let leading := c.breakText
      match blockBreaks start indent (c.left + 1) c.passBreak [] 0 with
      | .error stop => .error stop
      | .ok (c, trailing, _) => blockLines start indent literal steps c text leading trailing blank

/-- Reads a block scalar behind its `|` or `>`; `outer` is the indentation around it. -/
def blockScalar (start : Nat) (outer : Int) (literal : Bool) (c : Cursor) :
    Except Stop (Cursor × Bytes) := do
  let (c, chomping, increment) ← blockHeader start (c.need 1)
  let c := (c.need 1).passWhile isBlank
  let c := if c.at_ 35 then c.passLine else c
  if !isLineEnd c.next then throw (c.stop start "did not find expected comment or line break")
  let c := c.passBreak
  let given := if increment == 0 then 0 else if 0 ≤ outer then outer.toNat + increment
    else increment
  let (c, trailing, widest) ← blockBreaks start given (c.left + 1) c [] 0
  let indent := if given == 0 then max widest (max (outer + 1).toNat 1) else given
  let (c, text, leading, trailing) ←
    blockLines start indent literal (c.left + 1) c [] [] trailing false
  let tail := match chomping with
    | .strip => []
    | .clip => leading
    | .keep => leading ++ trailing
  pure (c, Utf8.ofCodes (text.reverse ++ tail))

end UiCodegen.Document.Yaml
