import UiCodegen.Document.Yaml.Input
import UiCodegen.Document.Yaml.Scalar

/-!
# Tokens of YAML

The scanner turns a text into tokens.  In block style, indentation becomes tokens that open and
close collections.  Whether something is a key of a mapping shows only at the `:` behind it, so the
scanner remembers where a key could have begun, one place for each level of brackets, and puts the
tokens in there when the `:` comes.

Scanning goes on to the end of the text or to the first fault.  The reader of tokens is always two
tokens behind, and further behind while it waits for the `:` of a key; `Tokens.get` reports a fault
to a reader exactly when it would have come upon it.  A bracket that closes without any key noted
inside ends the wait for the `:` behind it, although it may still come: if the reader has passed the
bracket by then, the tokens of the key are put at the end.
-/

namespace UiCodegen.Document.Yaml

/-- A token. -/
inductive Token where
  | streamStart
  | streamEnd
  | versionDirective (major minor : Nat)
  | tagDirective (handle lead : Bytes)
  | documentStart
  | documentEnd
  | blockSequenceStart
  | blockMappingStart
  | blockEnd
  | flowSequenceStart
  | flowSequenceEnd
  | flowMappingStart
  | flowMappingEnd
  | blockEntry
  | flowEntry
  | key
  | value
  | alias (name : Bytes)
  | anchor (name : Bytes)
  | tag (handle ending : Bytes)
  | scalar (text : Bytes) (plain : Bool)
  deriving DecidableEq, Repr

/-- A token and the line where it begins, counted from zero. -/
structure Placed where
  token : Token
  line : Nat
  deriving DecidableEq, Repr

/-- A place where a key may have begun. -/
structure PossibleKey where
  number : Nat
  line : Nat
  column : Nat
  index : Nat
  /-- Whether nothing but a key may stand there. -/
  required : Bool
  deriving DecidableEq, Repr

def keyReach : Nat := 1024

def maxDepth : Nat := 10000

/-- What is known about the keys of a level of brackets. -/
structure Level where
  possible : Option PossibleKey := none
  /-- The number of the token noted last as a possible key, at first that of the opening bracket. -/
  noted : Nat := 0
  deriving DecidableEq, Repr

/-- The state of the scanner. -/
structure Scanner where
  cursor : Cursor
  /-- The tokens, last first. -/
  tokens : List Placed := []
  count : Nat := 0
  indent : Int := -1
  /-- The indentations around, innermost first. -/
  indents : List Int := []
  keyAllowed : Bool := false
  level : Level := {}
  /-- The levels around, innermost first. -/
  outer : List Level := []
  /-- The numbers of the tokens at which the reader waits as long as they are possible keys. -/
  waiting : List Nat := []
  passed : Nat := 0
  /-- What is wrong with the text where it cannot be read. -/
  problem : Bytes := []
  deriving Repr

namespace Scanner

variable (s : Scanner) (c : Cursor)

def inFlow : Bool := !s.outer.isEmpty

def emit (token : Token) : Scanner :=
  { s with tokens := ⟨token, s.cursor.line⟩ :: s.tokens, count := s.count + 1 }

def stillPossible (key : PossibleKey) : Bool :=
  !(key.line < s.cursor.line || key.index + keyReach < s.cursor.index)

def missingColon (key : PossibleKey) : Stop :=
  s.cursor.stop key.line "could not find expected ':'"

def release (number : Nat) : Scanner :=
  { s with waiting := s.waiting.filter (· != number) }

def waitsAt (number : Nat) : Bool :=
  s.waiting.contains number && (s.level :: s.outer).any fun level =>
    match level.possible with
    | some key => key.number == number && s.stillPossible key
    | none => false

/-- Lets the reader go on to a token at which it waits, or that it may not see yet. -/
def advanceReader : (steps : Nat) → Scanner → Scanner
  | 0, s => s
  | steps + 1, s =>
    if s.passed + 2 < s.count && !s.waitsAt s.passed then
      advanceReader steps { s with passed := s.passed + 1 }
    else s

def dropKey : Except Stop Scanner :=
  match s.level.possible with
  | some key =>
    if key.required then .error (s.missingColon key)
    else .ok { s.release key.number with level.possible := none }
  | none => .ok s

/-- Remembers that a key may begin here, if one is allowed. -/
def noteKey : Except Stop Scanner :=
  if s.keyAllowed then do
    let key : PossibleKey :=
      { number := s.count, line := s.cursor.line, column := s.cursor.column
        index := s.cursor.index, required := !s.inFlow && s.indent == s.cursor.column }
    let s ← s.dropKey
    pure
      { s with
        level := { possible := some key, noted := key.number }
        waiting := key.number :: s.waiting }
  else .ok s

/-- Puts a token in front of token `number`, or at the end if the reader has passed that. -/
def insert (number : Nat) (token : Placed) : Scanner :=
  let behind := if s.passed ≤ number then s.count - number else 0
  { s with
    tokens := s.tokens.take behind ++ token :: s.tokens.drop behind
    count := s.count + 1 }

/-- Opens a block collection if the column is to the right of the current one.  The token that opens
it is put in front of token `number`. -/
def roll (column number : Nat) (token : Placed) : Except Stop Scanner :=
  if !s.inFlow && s.indent < column then
    if maxDepth < s.indents.length + 1 then .error (s.cursor.stop 0 "exceeded max depth")
    else .ok { s.insert number token with indents := s.indent :: s.indents, indent := column }
  else .ok s

def unrollTo (column : Int) : List Int → Scanner → Scanner
  | [], s => s
  | indent :: indents, s =>
    if s.indent ≤ column then s
    else unrollTo column indents ({ s with indent, indents }.emit .blockEnd)

/-- Closes the block collections to the right of a column; brackets are not concerned. -/
def unroll (column : Int) : Scanner :=
  if s.inFlow then s else unrollTo column s.indents s

/-! ## Between tokens -/

/-- Passes white space, comments and line breaks.  A tab is white space unless a block collection
could begin behind it.  As long as the view begins with a byte order mark, lines lose their first
character. -/
def toNextToken : (steps : Nat) → Scanner → Scanner
  | 0, s => s
  | steps + 1, s =>
    let c := s.cursor.need 1
    let c := if c.column == 0 && c.marked then c.pass 1 else c
    let tabs := s.inFlow || !s.keyAllowed
    let c := c.passWhile fun code => code == 32 || (tabs && code == 9)
    let c := if c.at_ 35 then c.passComments (c.left + 1) else c
    if !c.rest.isEmpty && isLineEnd c.next then
      toNextToken steps { s with cursor := c.passBreak, keyAllowed := s.keyAllowed || !s.inFlow }
    else { s with cursor := c }

/-! ## Names, tags and directives -/

def bytesOf (codes : List Nat) : Bytes := Utf8.ofCodes codes

def readName : Except Stop (Bytes × Cursor) :=
  let name := c.rest.drop 1 |>.takeWhile isNameCode
  let behind := ((c.pass 1).need 1).passSeeing 1 name.length
  let ends := match behind.next with
    | none => true
    | some code =>
      isBlank code || isBreak code || [63, 58, 44, 93, 125, 37, 64, 96].contains code
  if name.isEmpty || !ends then
    .error (behind.stop c.line "did not find expected alphabetic or numeric character")
  else .ok (bytesOf name, behind)

/-- The characters of which tags are made, escapes apart. -/
def isTagCode (c : Nat) : Bool :=
  isNameCode c ||
    [59, 47, 63, 58, 64, 38, 61, 43, 36, 44, 46, 33, 126, 42, 39, 40, 41, 91, 93].contains c

/-- The octet that `%` and two hexadecimal digits stand for. -/
def escapedOctet? : Option UInt8 :=
  if c.at_ 37 then (hexNumber? 2 (c.rest.drop 1)).map Nat.toUInt8 else none

/-- Reads the characters of a tag, with `%` in front of two hexadecimal digits for an octet.  Such
octets make up characters, of which one has `missing` octets to come. -/
def tagText (start : Nat) :
    (steps missing : Nat) → Cursor → Bytes → Except Stop (Bytes × Cursor)
  | 0, _, c, text => .ok (text, c)
  | steps + 1, missing, c, text =>
    let c := c.need 1
    if 0 < missing || c.at_ 37 then
      let c := c.need 3
      match escapedOctet? c with
      | none => .error (c.stop start "did not find URI escaped octet")
      | some octet =>
        if 0 < missing then
          if 0x80 ≤ octet && octet ≤ 0xBF then
            tagText start steps (missing - 1) (c.pass 3) (text ++ [octet])
          else .error (c.stop start "found an incorrect trailing UTF-8 octet")
        else match utf8Width? octet with
          | some width => tagText start steps (width - 1) (c.pass 3) (text ++ [octet])
          | none => .error (c.stop start "found an incorrect leading UTF-8 octet")
    else match c.next with
      | none => .ok (text, c)
      | some code =>
        if isTagCode code then tagText start steps 0 (c.pass 1) (text ++ Utf8.encode code)
        else .ok (text, c)

/-- Reads the handle of a tag: `!`, `!!` or `!name!`, or the beginning of a tag without one. -/
def tagHandle : Bytes × Cursor :=
  let name := c.rest.drop 1 |>.takeWhile isNameCode
  let behind := ((c.pass 1).need 1).passSeeing 1 name.length
  if behind.at_ 33 then (33 :: bytesOf name ++ [33], behind.pass 1)
    else (33 :: bytesOf name, behind)

def readTag : Except Stop (Token × Cursor) := do
  let start := c.line
  let (token, behind) ←
    if c.ahead 1 == some 60 then do
      let inside := c.pass 2
      let (ending, behind) ← tagText start (inside.left + 1) 0 inside []
      if ending.isEmpty then throw (behind.stop start "did not find expected tag URI")
      if !behind.at_ 62 then throw (behind.stop start "did not find the expected '>'")
      pure (Token.tag [] ending, behind.pass 1)
    else do
      let (handle, inside) := tagHandle c
      let (ending, behind) ← tagText start (inside.left + 1) 0 inside []
      if 1 < handle.length && handle.getLast? == some 33 then
        if ending.isEmpty then throw (behind.stop start "did not find expected tag URI")
        pure (Token.tag handle ending, behind)
      else
        let ending := handle.drop 1 ++ ending
        pure (if ending.isEmpty then Token.tag [] "!" else Token.tag "!" ending, behind)
  let behind := behind.need 1
  if !isGap behind.next then
    throw (behind.stop start "did not find expected whitespace or line break")
  pure (token, behind)

def versionNumber (start : Nat) (c : Cursor) : Except Stop (Nat × Cursor) :=
  let digits := c.rest.takeWhile fun code => 48 ≤ code && code ≤ 57
  if digits.isEmpty then .error (c.stop start "did not find expected version number")
  else if 2 < digits.length then .error (c.stop start "found extremely long version number")
  else .ok (digits.foldl (fun n code => n * 10 + (code - 48)) 0, c.passSeeing 1 digits.length)

def directiveBody (start : Nat) (name : Bytes) (c : Cursor) : Except Stop (Token × Cursor) := do
  let c := c.passWhile isBlank
  if name == "YAML" then
    let (major, c) ← versionNumber start c
    if !c.at_ 46 then throw (c.stop start "did not find expected digit or '.' character")
    let (minor, c) ← versionNumber start ((c.pass 1).need 1)
    pure (.versionDirective major minor, c)
  else if name == "TAG" then
    if !c.at_ 33 then throw (c.stop start "did not find expected '!'")
    let (handle, c) := tagHandle c
    if handle != "!" && (handle.length == 1 || handle.getLast? != some 33) then
      throw (c.stop start "did not find expected '!'")
    let c := c.need 1
    if !(c.next.map isBlank).getD false then throw (c.stop start "did not find expected whitespace")
    let c := c.passWhile isBlank
    let (lead, c) ← tagText start (c.left + 1) 0 c []
    if lead.isEmpty then throw (c.stop start "did not find expected tag URI")
    if !isGap c.next then throw (c.stop start "did not find expected whitespace or line break")
    pure (.tagDirective handle lead, c)
  else throw (c.stop start "found unknown directive name")

def readDirective : Except Stop (Token × Cursor) := do
  let start := c.line
  let name := c.rest.drop 1 |>.takeWhile isNameCode
  let behind := ((c.pass 1).need 1).passSeeing 1 name.length
  if name.isEmpty then throw (behind.stop start "could not find expected directive name")
  if !isGap behind.next then throw (behind.stop start "found unexpected non-alphabetical character")
  let (token, behind) ← directiveBody start (bytesOf name) behind
  let behind := behind.passWhile isBlank
  let behind := if behind.at_ 35 then behind.passLine else behind
  if !isLineEnd behind.next then
    throw (behind.stop start "did not find expected comment or line break")
  pure (token, behind.passBreak)

/-! ## One token -/

/-- Emits a token made of the next `n` characters. -/
def mark (token : Token) (n : Nat) : Scanner :=
  let s := s.emit token
  { s with cursor := s.cursor.pass n }

/-- Emits a token read from here to `behind`. -/
def took (token : Token) (behind : Cursor) : Scanner :=
  { s.emit token with cursor := behind }

def fetchEnd : Except Stop Scanner := do
  let c := s.cursor
  let s :=
    if c.column == 0 then s else { s with cursor := { c with column := 0, line := c.line + 1 } }
  let s ← (s.unroll (-1)).dropKey
  pure ({ s with keyAllowed := false }.emit .streamEnd)

def fetchDirective : Except Stop Scanner := do
  let s ← (s.unroll (-1)).dropKey
  let (token, behind) ← readDirective s.cursor
  pure ({ s with keyAllowed := false }.took token behind)

def fetchDocumentMark (token : Token) : Except Stop Scanner := do
  let s ← (s.unroll (-1)).dropKey
  pure ({ s with keyAllowed := false }.mark token 3)

def fetchOpen (token : Token) : Except Stop Scanner := do
  let s ← s.noteKey
  if maxDepth < s.outer.length + 1 then throw (s.cursor.stop s.cursor.line "exceeded max depth")
  let s :=
    { s with outer := s.level :: s.outer, level := { noted := s.count }, keyAllowed := true }
  pure (s.mark token 1)

def fetchClose (token : Token) : Except Stop Scanner := do
  let s ← s.dropKey
  let s := match s.outer with
    | level :: outer => { s.release s.level.noted with level, outer }
    | [] => s
  pure ({ s with keyAllowed := false }.mark token 1)

/-- The `,` between entries. -/
def fetchFlowEntry : Except Stop Scanner := do
  let s ← s.dropKey
  pure ({ s with keyAllowed := true }.mark .flowEntry 1)

/-- The `-` of an entry. -/
def fetchBlockEntry : Except Stop Scanner := do
  if !s.inFlow && !s.keyAllowed then
    throw (s.cursor.stop 0 "block sequence entries are not allowed in this context")
  let s ← s.roll s.cursor.column s.count ⟨.blockSequenceStart, s.cursor.line⟩
  let s ← s.dropKey
  pure ({ s with keyAllowed := true }.mark .blockEntry 1)

/-- The `?` of a key. -/
def fetchKey : Except Stop Scanner := do
  if !s.inFlow && !s.keyAllowed then
    throw (s.cursor.stop 0 "mapping keys are not allowed in this context")
  let s ← s.roll s.cursor.column s.count ⟨.blockMappingStart, s.cursor.line⟩
  let s ← s.dropKey
  pure ({ s with keyAllowed := !s.inFlow }.mark .key 1)

/-- The `:` of a value that follows no key on its line. -/
def fetchLoneValue : Except Stop Scanner := do
  if !s.inFlow && !s.keyAllowed then
    throw (s.cursor.stop 0 "mapping values are not allowed in this context")
  let s ← s.roll s.cursor.column s.count ⟨.blockMappingStart, s.cursor.line⟩
  pure ({ s with keyAllowed := !s.inFlow }.mark .value 1)

/-- The `:` of a value.  If a key may have begun on the line, it did. -/
def fetchValue : Except Stop Scanner :=
  match s.level.possible with
  | none => s.fetchLoneValue
  | some key =>
    if s.stillPossible key then do
      let s := s.insert key.number ⟨.key, key.line⟩
      let s ← s.roll key.column key.number ⟨.blockMappingStart, key.line⟩
      pure ({ s.release key.number with level.possible := none, keyAllowed := false }.mark .value 1)
    else if key.required then .error (s.missingColon key)
    else { s with level.possible := none }.fetchLoneValue

def fetchName (token : Bytes → Token) : Except Stop Scanner := do
  let s ← s.noteKey
  let (name, behind) ← readName s.cursor
  pure ({ s with keyAllowed := false }.took (token name) behind)

def fetchTag : Except Stop Scanner := do
  let s ← s.noteKey
  let (token, behind) ← readTag s.cursor
  pure ({ s with keyAllowed := false }.took token behind)

def fetchBlockScalar (literal : Bool) : Except Stop Scanner := do
  let s ← s.dropKey
  let (behind, text) ← blockScalar s.cursor.line s.indent literal (s.cursor.pass 1)
  pure ({ s with keyAllowed := true }.took (.scalar text false) behind)

def fetchQuoted (single : Bool) : Except Stop Scanner := do
  let s ← s.noteKey
  let inside := s.cursor.pass 1
  let (behind, f) ← quotedScalar s.cursor.line single (inside.left + 2) inside {}
  pure ({ s with keyAllowed := false }.took (.scalar f.bytes false) behind)

/-- A plain scalar.  A key may follow on a line of its own. -/
def fetchPlain : Except Stop Scanner := do
  let s ← s.noteKey
  let c := s.cursor
  let (behind, f) ← plainScalar c.line s.inFlow (s.indent + 1) (c.left + 1) c {}
  pure ({ s with keyAllowed := f.broken }.took (.scalar f.bytes true) behind)

/-- The characters that cannot begin a plain scalar. -/
def isIndicator (c : Nat) : Bool :=
  [45, 63, 58, 44, 91, 93, 123, 125, 35, 38, 42, 33, 124, 62, 39, 34, 37, 64, 96].contains c

/-- Whether a plain scalar begins with `code` in front of `behind`. -/
def beginsPlain (inFlow : Bool) (code : Nat) (behind : Option Nat) : Bool :=
  !(isBlank code || isBreak code || isIndicator code) ||
    (code == 45 && !(behind.map isBlank).getD false) ||
    (!inFlow && (code == 63 || code == 58) && !isGap behind)

/-- Fetches the token that begins with `code`. -/
def fetchAt (code : Nat) : Except Stop Scanner :=
  let behind := s.cursor.ahead 1
  if code == 91 then s.fetchOpen .flowSequenceStart
  else if code == 123 then s.fetchOpen .flowMappingStart
  else if code == 93 then s.fetchClose .flowSequenceEnd
  else if code == 125 then s.fetchClose .flowMappingEnd
  else if code == 44 then s.fetchFlowEntry
  else if code == 45 && isGap behind then s.fetchBlockEntry
  else if code == 63 && (s.inFlow || isGap behind) then s.fetchKey
  else if code == 58 && (s.inFlow || isGap behind) then s.fetchValue
  else if code == 42 then s.fetchName .alias
  else if code == 38 then s.fetchName .anchor
  else if code == 33 then s.fetchTag
  else if code == 124 && !s.inFlow then s.fetchBlockScalar true
  else if code == 62 && !s.inFlow then s.fetchBlockScalar false
  else if code == 39 then s.fetchQuoted true
  else if code == 34 then s.fetchQuoted false
  else if beginsPlain s.inFlow code behind then s.fetchPlain
  else .error (s.cursor.stop s.cursor.line "found character that cannot start any token")

/-- Passes the comment behind the token that was just fetched.  An entry mark has none: what follows
it belongs to the entry. -/
def passComment : Scanner :=
  if (s.tokens.head?.map (·.token)) == some .blockEntry then s
  else { s with cursor := s.cursor.passLineComment }

/-- How many characters have to be readable where a token begins. -/
def tokenReach : Nat := 4

/-- Fetches the next token, and those that its place implies. -/
def fetchToken : Except Stop Scanner :=
  match s.cursor.next with
  | none => s.fetchEnd
  | some code =>
    if s.cursor.column == 0 && code == 37 then s.fetchDirective
    else if s.cursor.atDocumentMark then
      s.fetchDocumentMark (if code == 45 then .documentStart else .documentEnd)
    else (s.fetchAt code).map passComment

/-- Fetches the next token, and those that its place implies, as far as the text can be read. -/
def fetch : Except Stop Scanner := do
  let s := s.advanceReader s.count
  let s := s.toNextToken (s.cursor.left + 1)
  let s := s.unroll s.cursor.column
  let s ← { s with cursor := s.cursor.need tokenReach }.fetchToken
  if s.cursor.failed then throw { line := 0, problem := s.problem } else pure s

def undecided : List Nat := s.waiting.filter s.waitsAt

end Scanner

/-- The tokens of a text, up to its end or up to a fault. -/
structure Tokens where
  tokens : Array Placed
  /-- Why scanning ended early, if it did. -/
  stop : Option Stop := none
  undecided : List Nat := []
  deriving Repr

namespace Tokens

def ofScanner (s : Scanner) : Tokens := { tokens := s.tokens.reverse.toArray }

def scanFrom : (steps : Nat) → Scanner → Tokens
  | 0, s => ofScanner s
  | steps + 1, s =>
    match s.fetch with
    | .error stop => { ofScanner s with stop := some stop, undecided := s.undecided }
    | .ok s' =>
      if (s'.tokens.head?.map (·.token)) == some .streamEnd then ofScanner s'
      else scanFrom steps s'

def scan (input : Input) : Tokens :=
  scanFrom (input.codes.length + 2)
    { cursor :=
        { rest := input.codes, size := input.codes.length, ends := input.ends
          unreadable := input.problem.isSome }
      tokens := [⟨.streamStart, 0⟩], count := 1, keyAllowed := true
      problem := input.problem.getD [] }

/-- Token number `i`, or the fault that is met on the way to it. -/
def get (ts : Tokens) (i : Nat) : Except Stop Placed :=
  let clear := match ts.stop with
    | none => true
    | some _ => i + 2 < ts.tokens.size && !ts.undecided.contains i
  match clear, ts.tokens[i]? with
  | true, some placed => .ok placed
  | _, _ => .error (ts.stop.getD { line := 0, problem := [] })

end Tokens

end UiCodegen.Document.Yaml
