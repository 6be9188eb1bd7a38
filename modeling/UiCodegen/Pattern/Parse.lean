import UiCodegen.Pattern.Basic
import UiCodegen.Pattern.Shape
import UiCodegen.Text.Integer

/-!
# Reading patterns

Patterns are read from left to right.  Groups that are still open are kept on a stack, innermost
first; each holds its finished alternatives and the items of the one being read.  Every step
consumes at least one octet, so a step for each octet is enough.

A fault carries the part of the pattern that is to blame.
-/

namespace UiCodegen.Pattern

variable (s : Bytes)

/-- Why a text is no pattern. -/
inductive Cause where
  | badRange
  | badEscape
  | badCaptureName
  | badPerlSyntax
  | nestedRepeat
  | badRepeatCount
  | badUtf8
  | missingBracket
  | missingParen
  | missingArgument
  | nestsTooDeeply
  | tooLarge
  | trailingBackslash
  | unexpectedParen
  deriving DecidableEq, Repr

def Cause.message : Cause → Bytes
  | badRange => "invalid character class range"
  | badEscape => "invalid escape sequence"
  | badCaptureName => "invalid named capture"
  | badPerlSyntax => "invalid or unsupported Perl syntax"
  | nestedRepeat => "invalid nested repetition operator"
  | badRepeatCount => "invalid repeat count"
  | badUtf8 => "invalid UTF-8"
  | missingBracket => "missing closing ]"
  | missingParen => "missing closing )"
  | missingArgument => "missing argument to repetition operator"
  | nestsTooDeeply => "expression nests too deeply"
  | tooLarge => "expression too large"
  | trailingBackslash => "trailing backslash at end of expression"
  | unexpectedParen => "unexpected )"

/-- A fault, with the part that is to blame. -/
structure Fault where
  cause : Cause
  part : Bytes
  deriving DecidableEq, Repr

def Fault.message (f : Fault) : Bytes :=
  "error parsing regexp: " ++ f.cause.message ++ ": `" ++ f.part ++ "`"

/-- The flags in force. -/
structure Flags where
  fold : Bool := false
  multiLine : Bool := false
  dotAll : Bool := false
  /-- Whether repetitions are reluctant unless a `?` follows them. -/
  reluctant : Bool := false
  deriving DecidableEq, Repr

/-- The text in front of `after`, which ends `before`. -/
def upToRest (before after : Bytes) : Bytes := before.take (before.length - after.length)

def nextCode : Except Fault (Nat × Bytes) :=
  match Utf8.first? s with
  | some (code, size) => .ok (code, s.drop size)
  | none => if s.isEmpty then .ok (Utf8.replacement, []) else .error ⟨.badUtf8, s⟩

/-! ## Escapes -/

def isOctal (b : UInt8) : Bool := 48 ≤ b && b ≤ 55

/-- Reads at most so many further octal digits. -/
def octal (value : Nat) : Nat → Bytes → Nat × Bytes
  | n + 1, b :: rest =>
    if isOctal b then octal (value * 8 + (b.toNat - 48)) n rest else (value, b :: rest)
  | _, s => (value, s)

def hexDigit? (code : Nat) : Option Nat :=
  if 48 ≤ code && code ≤ 57 then some (code - 48)
  else if 97 ≤ code && code ≤ 102 then some (code - 87)
  else if 65 ≤ code && code ≤ 70 then some (code - 55)
  else none

/-- The fault of an escape that goes wrong before `left`; `whole` begins with its backslash. -/
def badEscape (whole left : Bytes) : Fault := ⟨.badEscape, upToRest whole left⟩

def bracedHex (whole : Bytes) (value count : Nat) :
    (steps : Nat) → Bytes → Except Fault (Nat × Bytes)
  | 0, s => .error (badEscape whole s)
  | steps + 1, s =>
    if s.isEmpty then .error (badEscape whole s)
    else do
      let (code, rest) ← nextCode s
      if code == 125 then
        if count == 0 then .error (badEscape whole rest) else pure (value, rest)
      else match hexDigit? code with
        | none => .error (badEscape whole rest)
        | some d =>
          let value := value * 16 + d
          if 0x10FFFF < value then .error (badEscape whole rest)
          else bracedHex whole value (count + 1) steps rest

/-- The code behind `\x`. -/
def hexEscape (whole s : Bytes) : Except Fault (Nat × Bytes) :=
  if s.isEmpty then .error (badEscape whole s)
  else do
    let (first, rest) ← nextCode s
    if first == 123 then bracedHex whole 0 0 (rest.length + 1) rest
    else
      let (second, rest) ← nextCode rest
      match hexDigit? first, hexDigit? second with
      | some x, some y => pure (x * 16 + y, rest)
      | _, _ => .error (badEscape whole rest)

def controlEscape? (code : Nat) : Option Nat :=
  if code == 97 then some 7
  else if code == 102 then some 12
  else if code == 110 then some 10
  else if code == 114 then some 13
  else if code == 116 then some 9
  else if code == 118 then some 11
  else none

def isWordLetter (code : Nat) : Bool := isWordCode code && code != 95

/-- The character that an escape stands for; `s` begins with the backslash. -/
def escape (s : Bytes) : Except Fault (Nat × Bytes) :=
  match s.drop 1 with
  | [] => .error ⟨.trailingBackslash, []⟩
  | body => do
    let (code, rest) ← nextCode body
    let bad (left : Bytes) : Except Fault (Nat × Bytes) := .error (badEscape s left)
    if code < 128 && !isWordLetter code then pure (code, rest)
    else if 49 ≤ code && code ≤ 55 then
      match rest with
      | b :: _ => if isOctal b then pure (octal (code - 48) 2 rest) else bad rest
      | [] => bad rest
    else if code == 48 then pure (octal 0 2 rest)
    else if code == 120 then hexEscape s rest
    else match controlEscape? code with
      | some c => pure (c, rest)
      | none => bad rest

/-! ## Classes of characters -/

/-- The group of a letter escape at the front, such as `\d`. -/
def escapeGroup? : Bytes → Option (ClassItem × Bytes)
  | 92 :: letter :: rest =>
    (Group.escape? (Bytes.lowerByte letter)).map fun ranges =>
      (.group (Bytes.isUpper letter) ranges, rest)
  | _ => none

/-- The group of a category or script at the front, such as `\p{Greek}`. -/
def propertyGroup? : Except Fault (Option (ClassItem × Bytes)) :=
  match s with
  | 92 :: letter :: body =>
    if letter != 112 && letter != 80 then .ok none
    else do
      let (code, rest) ← nextCode body
      let (part, name, rest) ←
        if code != 123 then
          pure (upToRest s rest, upToRest body rest, rest)
        else match Bytes.cut? 125 body with
          | none =>
            if Utf8.valid s then throw ⟨.badRange, s⟩ else throw ⟨.badUtf8, s⟩
          | some (front, rest) =>
            if Utf8.valid front then pure (upToRest s rest, front.drop 1, rest)
            else throw ⟨.badUtf8, front.drop 1⟩
      let (flipped, name) := match name with
        | 94 :: name => (true, name)
        | name => (false, name)
      match Group.property? name with
      | none => throw ⟨.badRange, part⟩
      | some p => pure (some (.property ((letter == 80) != flipped) p, rest))
  | _ => .ok none

/-- The group of a bracketed name at the front, such as `[:alpha:]`. -/
def bracketedGroup? : Except Fault (Option (ClassItem × Bytes)) :=
  match s with
  | 91 :: 58 :: body =>
    if body.isEmpty then .ok none
    else match Bytes.beforeFirst? body ":]" with
      | none => .ok none
      | some name =>
        let (negated, plain) := match name with
          | 94 :: plain => (true, plain)
          | plain => (false, plain)
        match Group.bracketed.lookup plain with
        | none => .error ⟨.badRange, "[:" ++ name ++ ":]"⟩
        | some ranges => .ok (some (.group negated ranges, body.drop (name.length + 2)))
  | _ => .ok none

def classChar (whole s : Bytes) : Except Fault (Nat × Bytes) :=
  match s with
  | [] => .error ⟨.missingBracket, whole⟩
  | 92 :: _ => escape s
  | _ => nextCode s

def classRange (whole s : Bytes) : Except Fault (ClassItem × Bytes) := do
  let (lo, rest) ← classChar whole s
  match rest with
  | 45 :: b :: more =>
    if b == 93 then pure (.range lo lo, rest)
    else
      let (hi, rest) ← classChar whole (b :: more)
      if hi < lo then throw ⟨.badRange, upToRest s rest⟩ else pure (.range lo hi, rest)
  | _ => pure (.range lo lo, rest)

/-- The items of a class and what follows its closing bracket.  A bracket that comes first is an
item. -/
def classItems (whole : Bytes) (items : List ClassItem) (first : Bool) :
    (steps : Nat) → Bytes → Except Fault (List ClassItem × Bytes)
  | 0, _ => .error ⟨.missingBracket, whole⟩
  | steps + 1, s =>
    match s, first with
    | 93 :: rest, false => .ok (items.reverse, rest)
    | _, _ => do
      let (item, rest) ←
        match ← bracketedGroup? s with
        | some found => pure found
        | none =>
          match ← propertyGroup? s with
          | some found => pure found
          | none =>
            match escapeGroup? s with
            | some found => pure found
            | none => classRange whole s
      classItems whole (item :: items) false steps rest

/-- A class of characters; `s` begins with the opening bracket. -/
def charClass (flags : Flags) (s : Bytes) : Except Fault (CharClass × Bytes) := do
  let (negated, body) := match s.drop 1 with
    | 94 :: body => (true, body)
    | body => (false, body)
  let (items, rest) ← classItems s [] true (body.length + 2) body
  pure ({ items, negated, fold := flags.fold }, rest)

/-! ## Repetitions -/

/-- A number of a repeat count; `none` in the result is a number that is too large. -/
def count? : Option (Option Nat × Bytes) :=
  let digits := s.takeWhile Bytes.isDigit
  match digits with
  | [] => none
  | 48 :: _ :: _ => none
  | _ =>
    let value := digits.foldl (fun n d => n * 10 + (d.toNat - 48)) 0
    some (if 1000 < value then none else some value, s.dropWhile Bytes.isDigit)

/-- A repeat count in braces: the least and the largest number, if they are not too large, and what
follows. -/
def counts? : Option (Option (Nat × Option Nat) × Bytes) :=
  match count? (s.drop 1) with
  | none => none
  | some (least, rest) =>
    match rest with
    | 125 :: after => some (least.map fun n => (n, some n), after)
    | 44 :: 125 :: after => some (least.map fun n => (n, none), after)
    | 44 :: more =>
      match count? more with
      | some (most, 125 :: after) =>
        some (match least, most with
          | some n, some m => some (n, some m)
          | _, _ => none, after)
      | _ => none
    | _ => none

/-- Whether repeat counts inside each other multiply to at most `n`. -/
def countsWithin (n : Nat) : Pattern → Bool
  | .cat a b | .alt a b => countsWithin n a && countsWithin n b
  | .star least p =>
    let times := if 1 < least then least else 1
    times ≤ n && countsWithin (n / times) p
  | .times least most p =>
    if most == 0 then true
    else if least == 0 && most == 1 then countsWithin n p
    else most ≤ n && countsWithin (n / most) p
  | _ => true

/-! ## The pattern -/

/-- A group that is being read. -/
structure Frame where
  outer : Flags := {}
  captures : Bool := false
  /-- The finished alternatives, last first. -/
  alternatives : List Pattern := []
  /-- The items of the alternative being read, last first. -/
  items : List Pattern := []
  /-- The shapes of the finished alternatives, last first. -/
  choices : List Shape := []
  /-- The shapes of the items, last first; letters in front of the last item are joined. -/
  shapes : List Shape := []
  deriving Repr

/-- Items as one pattern, the last one first. -/
def catAll : List Pattern → Pattern
  | [] => .empty
  | last :: before => before.foldl (fun p item => .cat item p) last

def Frame.alternation (f : Frame) : Pattern :=
  f.alternatives.foldl (fun p alternative => .alt alternative p) (catAll f.items)

/-- How far a pattern has been read. -/
structure ParseState where
  whole : Bytes
  flags : Flags := {}
  frame : Frame := {}
  /-- The groups around, innermost first. -/
  enclosing : List Frame := []
  lastRepeat : Option Bytes := none
  budget : Budget := {}
  deriving Repr

def Cause.ofExcess : Excess → Cause
  | .size => tooLarge
  | .height => nestsTooDeeply

namespace ParseState

variable (st : ParseState)

def build {α : Type} (action : BudgetM α) : Except Fault (α × ParseState) :=
  match action.run st.budget with
  | .ok (shape, budget) => .ok (shape, { st with budget })
  | .error excess => .error ⟨.ofExcess excess, st.whole⟩

def push (st : ParseState) (item : Pattern) (shape : Shape) : Except Fault ParseState := do
  let (shapes, st) ← st.build (shape.push st.frame.shapes)
  pure { st with frame := { st.frame with items := item :: st.frame.items, shapes } }

def pushLeaf (item : Pattern) (look : Look) : Except Fault ParseState := do
  let (_, st) ← st.build Budget.make
  st.push item (Shape.ofParts look [])

def pushLiteral (codes : List Nat) : Except Fault ParseState :=
  codes.foldlM (fun st code =>
    let fold := st.flags.fold
    let letter := if fold then (Fold.members code).foldl min code else code
    st.pushLeaf (.char (CharClass.single fold code)) (.text fold [letter])) st

def pushClass (cls : CharClass) : Except Fault ParseState :=
  st.pushLeaf (.char cls) (.set [tidyClass cls])

/-- Adds a place for any character, line breaks included or not. -/
def pushAny (breaks : Bool) : Except Fault ParseState :=
  let items := if breaks then [] else [ClassItem.range 10 10]
  st.pushLeaf (.char { items, negated := true }) (.any breaks)

def pushBoundary (b : Boundary) : Except Fault ParseState :=
  st.pushLeaf (.boundary b) .boundary

def openGroup (captures : Bool) : Except Fault ParseState := do
  let (shapes, st) ← st.build do
    Budget.make
    Shape.endTexts st.frame.shapes
  pure { st with
    frame := { outer := st.flags, captures }, enclosing :=
      { st.frame with shapes } :: st.enclosing }

def endAlternative : Except Fault ParseState := do
  let (choices, st) ← st.build do
    let shape ← Shape.row st.frame.shapes
    shape.addAlternative st.frame.choices
  pure { st with frame := { st.frame with
    alternatives := catAll st.frame.items :: st.frame.alternatives, items := [], choices, shapes :=
      [] } }

def group : Except Fault (Pattern × Shape × ParseState) := do
  let (shape, st) ← st.build do
    let shape ← Shape.row st.frame.shapes
    if st.frame.choices.isEmpty then Shape.choice [shape]
    else Shape.choice (← shape.addAlternative st.frame.choices)
  pure (st.frame.alternation, shape, st)

def closeGroup : Except Fault ParseState := do
  let (pattern, shape, st) ← st.group
  match st.enclosing with
  | [] => throw ⟨.unexpectedParen, st.whole⟩
  | outer :: enclosing =>
    let shape := if st.frame.captures then Shape.ofParts .capture [shape] else shape
    { st with flags := st.frame.outer, frame := outer, enclosing }.push pattern shape

/-- Repeats the last item.  `before` begins with the repetition, `after` is what follows it; a `?`
there belongs to it, and makes it reluctant. -/
def repeatLast (before after : Bytes) (wrap : Pattern → Pattern)
    (look : (reluctant : Bool) → Look) : Except Fault (ParseState × Bytes) :=
  let (flipped, after) := match after with
    | 63 :: rest => (true, rest)
    | rest => (false, rest)
  match st.lastRepeat with
  | some last => .error ⟨.nestedRepeat, upToRest last after⟩
  | none =>
    match st.frame.items, st.frame.shapes with
    | last :: items, shape :: shapes => do
      let (shape, st) ← st.build do
        Budget.make
        Budget.check (Shape.ofParts (look (st.flags.reluctant != flipped)) [shape])
      pure ({ st with
        frame := { st.frame with items := wrap last :: items, shapes := shape :: shapes }
        lastRepeat := some before }, after)
    | _, _ => .error ⟨.missingArgument, upToRest before after⟩

def repeatCounted (before after : Bytes) (counts : Option (Nat × Option Nat)) :
    Except Fault (ParseState × Bytes) :=
  match counts with
  | none => .error ⟨.badRepeatCount, upToRest before after⟩
  | some (least, most) =>
    if (most.map fun m => decide (m < least)).getD false then
      .error ⟨.badRepeatCount, upToRest before after⟩
    else
      let wrap := fun p => match most with
        | some m => .times least m p
        | none => .star least p
      match st.repeatLast before after wrap (.times least most) with
      | .error fault => .error fault
      | .ok (st, rest) =>
        if (st.frame.items.head?.map (countsWithin 1000)).getD true then .ok (st, rest)
        else .error ⟨.badRepeatCount, upToRest before rest⟩

/-- Reads flags behind `(?`; `flags` are those set so far, `negative` tells whether a `-` was seen,
and `seen` whether a flag stands on this side of it. -/
def readFlags (st : ParseState) (whole : Bytes) (flags : Flags) (negative seen : Bool) :
    (steps : Nat) → Bytes → Except Fault (ParseState × Bytes)
  | 0, s => .error ⟨.badPerlSyntax, upToRest whole s⟩
  | steps + 1, s =>
    if s.isEmpty then .error ⟨.badPerlSyntax, upToRest whole s⟩
    else match nextCode s with
      | .error fault => .error fault
      | .ok (code, rest) =>
        let bad : Except Fault (ParseState × Bytes) := .error ⟨.badPerlSyntax, upToRest whole rest⟩
        if code == 105 then readFlags st whole { flags with fold := !negative } negative
          true steps rest
        else if code == 109 then
          readFlags st whole { flags with multiLine := !negative } negative true steps rest
        else if code == 115 then
          readFlags st whole { flags with dotAll := !negative } negative true steps rest
        else if code == 85 then
          readFlags st whole { flags with reluctant := !negative } negative true steps rest
        else if code == 45 then
          if negative then bad else readFlags st whole flags true false steps rest
        else if code == 58 || code == 41 then
          if negative && !seen then bad
          else if code == 58 then (st.openGroup false).map fun st => ({ st with flags }, rest)
          else .ok ({ st with flags }, rest)
        else bad

/-- The name of a capture behind `(?P<` or `(?<`, and what follows its `>`. -/
def readCapture (s name : Bytes) : Except Fault (ParseState × Bytes) :=
  match Bytes.cut? 62 name with
  | none => .error (if Utf8.valid s then ⟨.badCaptureName, s⟩ else ⟨.badUtf8, s⟩)
  | some (name, rest) =>
    if !Utf8.valid name then .error ⟨.badUtf8, name⟩
    else if name.isEmpty || !name.all fun b => Bytes.isLetter b || Bytes.isDigit b || b == 95 then
      .error ⟨.badCaptureName, upToRest s rest⟩
    else (st.openGroup true).map (·, rest)

/-- What begins with `(?`. -/
def readExtension (s : Bytes) : Except Fault (ParseState × Bytes) :=
  match s.drop 2 with
  | 80 :: 60 :: b :: rest => st.readCapture s (b :: rest)
  | 60 :: b :: rest => st.readCapture s (b :: rest)
  | body => st.readFlags s st.flags false false (body.length + 1) body

def readEscape (s : Bytes) : Except Fault (ParseState × Bytes) :=
  match s with
  | 92 :: 65 :: rest => (st.pushBoundary .textStart).map (·, rest)
  | 92 :: 98 :: rest => (st.pushBoundary .word).map (·, rest)
  | 92 :: 66 :: rest => (st.pushBoundary .noWord).map (·, rest)
  | 92 :: 67 :: rest => .error ⟨.badEscape, upToRest s rest⟩
  | 92 :: 122 :: rest => (st.pushBoundary .textEnd).map (·, rest)
  | 92 :: 81 :: body =>
    let quoted := (Bytes.beforeFirst? body "\\E").getD body
    if Utf8.valid quoted then
      (st.pushLiteral (Utf8.codes quoted)).map (·, body.drop (quoted.length + 2))
    else .error ⟨.badUtf8, quoted⟩
  | _ => do
    match ← propertyGroup? s with
    | some (item, rest) => (st.pushClass { items := [item], fold := st.flags.fold }).map (·, rest)
    | none =>
      match escapeGroup? s with
      | some (item, rest) => (st.pushClass { items := [item], fold := st.flags.fold }).map (·, rest)
      | none =>
        let (code, rest) ← escape s
        (st.pushLiteral [code]).map (·, rest)

/-- Reads one item, operator or parenthesis of a text that is not empty. -/
def step (c : UInt8) (rest : Bytes) : Except Fault (ParseState × Bytes) :=
  let s := c :: rest
  let plain := { st with lastRepeat := none }
  if c == 40 then
    match rest with
    | 63 :: _ => plain.readExtension s
    | _ => (plain.openGroup true).map (·, rest)
  else if c == 124 then plain.endAlternative.map (·, rest)
  else if c == 41 then plain.closeGroup.map (·, rest)
  else if c == 94 then
    (plain.pushBoundary (if st.flags.multiLine then .lineStart else .textStart)).map (·, rest)
  else if c == 36 then
    (plain.pushBoundary (if st.flags.multiLine then .lineEnd else .textEnd)).map (·, rest)
  else if c == 46 then (plain.pushAny st.flags.dotAll).map (·, rest)
  else if c == 91 then do
    let (cls, rest) ← charClass st.flags s
    (plain.pushClass cls).map (·, rest)
  else if c == 42 then st.repeatLast s rest (.star 0) fun _ => .star
  else if c == 43 then st.repeatLast s rest (.star 1) fun _ => .plus
  else if c == 63 then st.repeatLast s rest (.times 0 1) fun _ => .plus
  else if c == 123 then
    match counts? s with
    | none => (plain.pushLiteral [123]).map (·, rest)
    | some (counts, after) => st.repeatCounted s after counts
  else if c == 92 then plain.readEscape s
  else do
    let (code, rest) ← nextCode s
    (plain.pushLiteral [code]).map (·, rest)

def run : (steps : Nat) → ParseState → Bytes → Except Fault Pattern
  | _, st, [] => do
    let (pattern, _, st) ← st.group
    if st.enclosing.isEmpty then pure pattern else throw ⟨.missingParen, st.whole⟩
  | 0, st, _ => .error ⟨.missingParen, st.whole⟩
  | steps + 1, st, c :: rest => do
    let (st, rest) ← st.step c rest
    run steps st rest

end ParseState

def parse : Except Fault Pattern := ParseState.run s.length { whole := s } s

end UiCodegen.Pattern
