import UiCodegen.Pattern.Group
import UiCodegen.Text.Fold

/-!
# Patterns

Regular expressions over code points.  `Pattern.reach` gives their meaning: the places where a match
that begins at one of some places can end.  It is defined by recursion on the pattern; a repetition
without bound needs no more rounds than the text has places, since every round but the last adds
one.

All places are followed at the same time, so a text is matched quickly however often a pattern could
be tried on it.

Which of several matches is preferred makes no difference here, so greedy and reluctant repetitions
are the same pattern.
-/

namespace UiCodegen

/-- A part of a class of characters. -/
inductive ClassItem where
  /-- The code points of an interval, both ends included. -/
  | range (lo hi : Nat)
  /-- The code points in some of the intervals, or in none of them. -/
  | group (negated : Bool) (ranges : List (Nat × Nat))
  /-- The code points with a property, or those without it. -/
  | property (negated : Bool) (p : Pattern.Group.Property)
  deriving DecidableEq, Repr

/-- A class of characters: those in some part, or those in no part. -/
structure CharClass where
  items : List ClassItem
  negated : Bool := false
  /-- Whether letters of either case stand for each other. -/
  fold : Bool := false
  deriving DecidableEq, Repr

/-- Conditions on a place of the text. -/
inductive Boundary where
  | textStart | textEnd | lineStart | lineEnd | word | noWord
  deriving DecidableEq, Repr

/-- A regular expression. -/
inductive Pattern where
  | empty
  | char (cls : CharClass)
  | boundary (b : Boundary)
  | cat (a b : Pattern)
  | alt (a b : Pattern)
  /-- Any number of times, but at least `least` times. -/
  | star (least : Nat) (p : Pattern)
  /-- Between `least` and `most` times. -/
  | times (least most : Nat) (p : Pattern)
  deriving Repr

namespace CharClass

def inRange (forms : List Nat) (lo hi : Nat) : Bool := forms.any fun c => lo ≤ c && c ≤ hi

def has (cls : CharClass) (code : Nat) : Bool :=
  let forms := if cls.fold then Fold.members code else [code]
  cls.negated != cls.items.any fun item =>
    match item with
    | .range lo hi => inRange forms lo hi
    | .group negated ranges => negated != ranges.any fun (lo, hi) => inRange forms lo hi
    | .property negated p => negated != forms.any p.has

def single (fold : Bool) (code : Nat) : CharClass := { items := [.range code code], fold }

end CharClass

namespace Pattern

/-- Letters, digits and `_`. -/
def isWordCode (code : Nat) : Bool :=
  (48 ≤ code && code ≤ 57) || (65 ≤ code && code ≤ 90) || code == 95 || (97 ≤ code && code ≤ 122)

def wordBefore (text : Array Nat) (place : Nat) : Bool :=
  place != 0 && ((text[place - 1]?).map isWordCode).getD false

def wordBehind (text : Array Nat) (place : Nat) : Bool :=
  ((text[place]?).map isWordCode).getD false

def holds (text : Array Nat) (place : Nat) : Boundary → Bool
  | .textStart => place == 0
  | .textEnd => place == text.size
  | .lineStart => place == 0 || text[place - 1]? == some 10
  | .lineEnd => place == text.size || text[place]? == some 10
  | .word => wordBefore text place != wordBehind text place
  | .noWord => wordBefore text place == wordBehind text place

/-! ## Matching -/

/-- A set of places of a text: a number in which bit `i` is set if place `i` is in the set. -/
abbrev Places := Nat

/-- The places of a set that pass a test, among the first `count` places. -/
def Places.filter (places : Places) (test : Nat → Bool) (count : Nat) : Places :=
  if places == 0 then 0
  else (List.range count).foldl (fun kept place =>
    if places.testBit place && test place then kept ||| 1 <<< place else kept) 0

/-- The places reached by any number of steps; `seen` have been reached before, `fresh` just now. -/
def closure (step : Places → Places) : (rounds : Nat) → (seen fresh : Places) → Places
  | 0, seen, _ => seen
  | rounds + 1, seen, fresh =>
    let reached := step fresh
    let more := reached ^^^ (reached &&& seen)
    if more == 0 then seen else closure step rounds (seen ||| more) more

def exactly (step : Places → Places) : Nat → Places → Places
  | 0, places => places
  | n + 1, places => if places == 0 then 0 else exactly step n (step places)

/-- The places reached by at most so many steps. -/
def upTo (step : Places → Places) : Nat → Places → Places
  | 0, places => places
  | n + 1, places => if places == 0 then 0 else places ||| upTo step n (step places)

def meets (text : Array Nat) (cls : CharClass) (place : Nat) : Bool :=
  ((text[place]?).map cls.has).getD false

/-- The places where a match that begins at one of `places` can end. -/
def reach (text : Array Nat) : Pattern → Places → Places
  | .empty, places => places
  | .char cls, places => (places.filter (meets text cls) text.size) <<< 1
  | .boundary b, places => places.filter (holds text · b) (text.size + 1)
  | .cat a b, places => b.reach text (a.reach text places)
  | .alt a b, places => a.reach text places ||| b.reach text places
  | .star least p, places =>
    let reached := exactly (p.reach text) least places
    closure (p.reach text) (text.size + 1) reached reached
  | .times least most p, places =>
    upTo (p.reach text) (most - least) (exactly (p.reach text) least places)

def matchesText (p : Pattern) (s : Bytes) : Bool :=
  let text := (Utf8.codes s).toArray
  p.reach text (Nat.pow 2 (text.size + 1) - 1) != 0

end Pattern

end UiCodegen
