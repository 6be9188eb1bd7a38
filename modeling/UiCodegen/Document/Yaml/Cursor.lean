import UiCodegen.Bytes

/-!
# Places in a YAML text

A cursor stands in front of what has not been read and knows its line and column.  The text is a
list of code points; its end reads like a blank that is neither white space nor a line break.

The text is taken in pieces.  Where more has to be in view than was taken, what has been read is
dropped, so that the view begins at the cursor, and the next pieces are taken (`Cursor.need`).  A
view that begins with a byte order mark has an effect on the lines in it.  Behind the end one more
place comes into view each time.
-/

namespace UiCodegen.Document.Yaml

/-- Why a text cannot be read, and on which line; zero if unknown. -/
structure Stop where
  line : Nat
  problem : Bytes
  deriving DecidableEq, Repr

def isBlank (c : Nat) : Bool := c == 32 || c == 9

/-- Line breaks: CR, LF, NEL, and the Unicode line and paragraph separators. -/
def isBreak (c : Nat) : Bool := c == 13 || c == 10 || c == 0x85 || c == 0x2028 || c == 0x2029

/-- Letters, digits, `_` and `-`, of which names are made. -/
def isNameCode (c : Nat) : Bool :=
  (48 ≤ c && c ≤ 57) || (65 ≤ c && c ≤ 90) || (97 ≤ c && c ≤ 122) || c == 95 || c == 45

/-- Whether what comes next is a space, a tab, a line break or the end. -/
def isGap : Option Nat → Bool
  | none => true
  | some c => isBlank c || isBreak c

def isLineEnd : Option Nat → Bool
  | none => true
  | some c => isBreak c

/-- A place in the text. -/
structure Cursor where
  rest : List Nat
  line : Nat := 0
  column : Nat := 0
  index : Nat := 0
  size : Nat
  /-- Whether there are only blanks since the last line break. -/
  fresh : Bool := false
  /-- The numbers of characters up to the end of each piece that may be needed yet. -/
  ends : List Nat := []
  taken : Nat := 0
  beyond : Nat := 0
  marked : Bool := false
  /-- Whether the text goes on behind its last character, but cannot be read there. -/
  unreadable : Bool := false
  /-- Whether what cannot be read was needed. -/
  failed : Bool := false
  deriving DecidableEq, Repr

namespace Cursor

variable (c : Cursor)

/-- The character `k` places ahead. -/
def ahead (k : Nat) : Option Nat := c.rest[k]?

def left : Nat := c.size - c.index

def next : Option Nat := c.rest.head?

def at_ (code : Nat) : Bool := c.next == some code

/-- Sees to it that the next `n` characters are in view, as far as the text has them. -/
def need (n : Nat) : Cursor :=
  if c.index + n ≤ c.taken + c.beyond then c
  else
    let ends := c.ends.dropWhile (· < c.index + n)
    let c := { c with marked := c.at_ 0xFEFF, ends }
    match ends with
    | taken :: _ => { c with taken }
    | [] => { c with taken := c.size, beyond := c.beyond + 1, failed := c.failed || c.unreadable }

/-- Passes `n` characters of the line. -/
def pass (n : Nat) : Cursor :=
  { c with
    rest := c.rest.drop n, column := c.column + n, index := c.index + n
    fresh := c.fresh && (c.rest.take n).all isBlank }

/-- Passes `n` characters of the line, and has `view` more in view behind each of them. -/
def passSeeing (view : Nat) : (n : Nat) → Cursor → Cursor
  | 0, c => c
  | n + 1, c => passSeeing view n ((c.pass 1).need view)

/-- Passes the characters of the line that satisfy `p`. -/
def passWhile (p : Nat → Bool) : Cursor := c.passSeeing 1 (c.rest.takeWhile p).length

/-- Passes a line break, if one comes next; CR and LF together are one, so two characters are looked
at. -/
def passBreak : Cursor :=
  match c.rest with
  | 13 :: 10 :: rest =>
    { c.need 2 with rest, line := c.line + 1, column := 0, index := c.index + 2, fresh := true }
  | code :: rest =>
    if isBreak code then
      { c.need 2 with rest, line := c.line + 1, column := 0, index := c.index + 1, fresh := true }
    else c
  | [] => c

def breakText : List Nat :=
  match c.next with
  | some code =>
    if code == 0x2028 || code == 0x2029 then [code] else if isBreak code then [10] else []
  | none => []

/-- Passes blanks and line breaks up to the character with number `index`. -/
def passTo (index : Nat) : (steps : Nat) → Cursor → Cursor
  | 0, c => c
  | steps + 1, c =>
    if index ≤ c.index then c
    else match c.next with
      | none => c
      | some code => passTo index steps ((if isBreak code then c.passBreak else c.pass 1).need 1)

def passLine : Cursor := c.passWhile (!isBreak ·)

def commentReach : Nat := 512

/-- How many characters lie between the end of a comment and what could be another one: its line
break, and the blanks and line breaks behind it.  Only CR and LF count as line breaks here. -/
def commentGap : Nat :=
  match c.rest with
  | [] => 0
  | code :: rest =>
    if code == 13 || code == 10 then
      1 + (rest.takeWhile fun code => isBlank code || code == 13 || code == 10).length
    else 0

/-- Passes the comment that comes next, and the comments behind it that only blanks and line breaks
separate from it. -/
def passComments : (steps : Nat) → Cursor → Cursor
  | 0, c => c
  | steps + 1, c =>
    let c := c.passLine
    let gap := c.commentGap
    let c := c.need (min commentReach (max gap 1 + 1))
    if gap < commentReach && c.ahead gap == some 35 then
      passComments steps (passTo (c.index + gap) gap c)
    else c

def passLineComment : Cursor :=
  let gap := (c.rest.takeWhile isBlank).length
  if c.fresh then c
  else
    let c := c.need (min commentReach (gap + 1))
    if gap < commentReach && c.ahead gap == some 35 then c.passLine else c

def atDocumentMark : Bool :=
  c.column == 0 && isGap (c.ahead 3) &&
    (c.rest.take 3 == [45, 45, 45] || c.rest.take 3 == [46, 46, 46])

/-- A fault of something that began on line `start`, found here. -/
def stop (start : Nat) (problem : Bytes) : Stop :=
  { line := if start != 0 then start + 1 else if c.line != 0 then c.line + 1 else 0, problem }

end Cursor

end UiCodegen.Document.Yaml
