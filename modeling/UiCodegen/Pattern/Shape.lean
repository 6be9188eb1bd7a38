import UiCodegen.Pattern.Basic

/-!
# Shapes of patterns

What limits a pattern is measured on its shape.  This is a tree in which letters that stand side by
side are one text, a row inside a row and a choice inside a choice are parts of the outer one,
alternatives that are single characters are one set, and what alternatives have in common at their
front stands in front of them: `abc|abd` has the shape of `ab[cd]` (`factor`).

Building a shape makes nodes, and some of them become free again.  How many nodes there are decides
whether the size of a pattern is measured at all (`Budget.check`).
-/

namespace UiCodegen.Pattern

/-! ## Classes with few characters -/

/-- Adds an interval in front of intervals that begin no earlier, joining those that meet. -/
def addInterval (lo hi : Nat) : List (Nat × Nat) → List (Nat × Nat)
  | [] => [(lo, hi)]
  | (first, last) :: rest =>
    if first ≤ hi + 1 then addInterval lo (max hi last) rest else (lo, hi) :: (first, last) :: rest

/-- The same intervals in order and apart from each other. -/
def tidyIntervals (intervals : List (Nat × Nat)) : List (Nat × Nat) :=
  (intervals.mergeSort fun a b => a.1 ≤ b.1).foldr (fun (lo, hi) done => addInterval lo hi done) []

/-- The code points from `start` on that are in none of the intervals, which are in order. -/
def gaps (start : Nat) : List (Nat × Nat) → List (Nat × Nat)
  | [] => if start ≤ 0x10FFFF then [(start, 0x10FFFF)] else []
  | (lo, hi) :: rest =>
      if start < lo then (start, lo - 1) :: gaps (hi + 1) rest else gaps (hi + 1) rest

/-- The intervals of a part of a class, if it is made of such. -/
def ClassItem.intervals? : ClassItem → Option (List (Nat × Nat))
  | .range lo hi => some [(lo, hi)]
  | .group negated ranges => some (if negated then gaps 0 (tidyIntervals ranges) else ranges)
  | .property .. => none

/-- A class with its intervals in order, so that equal classes are mostly written in the same way.
-/
def tidyClass (cls : CharClass) : CharClass :=
  match cls.items.mapM ClassItem.intervals? with
  | none => cls
  | some lists =>
    let intervals := tidyIntervals lists.flatten
    if cls.fold then { cls with items := intervals.map fun (lo, hi) => .range lo hi }
    else
      let intervals := if cls.negated then gaps 0 intervals else intervals
      { items := intervals.map fun (lo, hi) => .range lo hi }

/-- The characters of a class, if they are listed and not more than two, apart from those of other
case. -/
def fewOf? (cls : CharClass) : Option (List Nat) :=
  if cls.negated then none
  else match cls.items with
    | [.range lo hi] =>
      if hi == lo then some [lo] else if hi == lo + 1 then some [lo, hi] else none
    | [.range a a', .range b b'] => if a == a' && b == b' then some [a, b] else none
    | _ => none

/-- The single letter that some classes stand for together, and whether its case does not count. -/
def letterOf? (classes : List CharClass) : Option (Bool × Nat) := do
  let lists ← classes.mapM fun cls =>
    (fewOf? cls).map fun codes => if cls.fold then codes.flatMap Fold.members else codes
  match (lists.flatten.mergeSort (· ≤ ·)).eraseDups with
  | [code] => some (false, code)
  | [a, b] =>
    let class_ := Fold.members a
    if class_.length == 2 && class_.contains b then some (true, a) else none
  | _ => none

/-! ## Shapes -/

/-- What a part of a pattern looks like. -/
inductive Look where
  | empty
  /-- Letters one after the other, last one first.  If their case does not count, each stands for
  the first letter of its class. -/
  | text (fold : Bool) (reversed : List Nat)
  | set (classes : List CharClass)
  /-- Any character; `breaks` says whether line breaks are among them. -/
  | any (breaks : Bool)
  | boundary
  | row
  | choice
  | capture
  | star
  /-- A part at least once, or at most once. -/
  | plus
  | times (least : Nat) (most : Option Nat) (reluctant : Bool)
  deriving DecidableEq, Repr

/-- The shape of a pattern, with its height and its size as they were measured last. -/
inductive Shape where
  | node (look : Look) (height size : Nat) (parts : List Shape)
  deriving Repr

namespace Shape

def look : Shape → Look
  | node look .. => look

def height : Shape → Nat
  | node _ height .. => height

def size : Shape → Nat
  | node _ _ size _ => size

def parts : Shape → List Shape
  | node _ _ _ parts => parts

def sizeOf (look : Look) (count inner : Nat) : Nat :=
  match look with
  | .text _ reversed => reversed.length
  | .row => inner
  | .choice => inner + (count - 1)
  | .capture | .star => inner + 2
  | .plus => inner + 1
  | .times least (some most) _ => most * inner + (most - least)
  | .times least none _ => if least == 0 then inner + 2 else least * inner + 1
  | _ => 1

def ofParts (look : Look) (parts : List Shape) : Shape :=
  let height := parts.foldl (fun h part => max h (part.height + 1)) 1
  let size := parts.foldl (fun n part => n + part.size) 0
  node look height (max 1 (sizeOf look parts.length size)) parts

def measured (s : Shape) : Shape := ofParts s.look s.parts

def empty : Shape := ofParts .empty []

/-- The shape of some letters, last one first. -/
def text (fold : Bool) (reversed : List Nat) : Shape := ofParts (.text fold reversed) []

def isEmpty (s : Shape) : Bool := s.look == .empty

def isSet (s : Shape) : Bool :=
  match s.look with
  | .set _ | .any _ | .text _ [_] => true
  | _ => false

def classes (s : Shape) : List CharClass :=
  match s.look with
  | .set classes => classes
  | .text fold reversed => reversed.map (CharClass.single fold)
  | _ => []

/-- The classes of a set that has the characters of all of some classes. -/
def uniteClasses (classes : List CharClass) : List CharClass :=
  if classes.all fun cls => !cls.fold && !cls.negated then
    [tidyClass { items := classes.flatMap (·.items) }]
  else classes

def unite (s t : Shape) : Shape :=
  if s.look == t.look then s
  else match s.look, t.look with
    | .any true, _ | _, .any true => ofParts (.any true) []
    | .any false, _ => ofParts (.any (t.classes.any (·.has 10))) []
    | _, .any false => ofParts (.any (s.classes.any (·.has 10))) []
    | _, _ => ofParts (.set (uniteClasses (s.classes ++ t.classes))) []

def letter? (s : Shape) : Option Shape :=
  match s.look with
  | .set classes => (letterOf? classes).map fun (fold, code) => text fold [code]
  | _ => none

end Shape

/-! ## The budget -/

/-- What a pattern has too much of. -/
inductive Excess where
  | size
  | height
  deriving DecidableEq, Repr

/-- What counts for the limits of a pattern besides its shape. -/
structure Budget where
  made : Nat := 0
  /-- The number of nodes that are free to be used again. -/
  spare : Nat := 0
  repeats : Nat := 1
  largest : Nat := 0
  counts : Bool := false
  deriving DecidableEq, Repr

namespace Budget

def maxHeight : Nat := 1000

def maxSize : Nat := 3355443

end Budget

abbrev BudgetM := StateT Budget (Except Excess)

namespace Budget

def make : BudgetM Unit :=
  modify fun b => if b.spare == 0 then { b with made := b.made + 1 }
    else { b with spare := b.spare - 1 }

def release : BudgetM Unit := modify fun b => { b with spare := b.spare + 1 }

/-- The product of repeat counts with that of one more repetition, as far as it matters. -/
def withRepeat (product : Nat) : Look → Nat
  | .times least most _ =>
    let n := max 1 (most.getD least)
    if maxSize / product < n then maxSize else product * n
  | _ => product

/-- Measures a shape, and refuses it if it is beyond the limits.  Sizes do not count before the
nodes that were made, each as often as all repetitions together say, could be too many. -/
def check (s : Shape) : BudgetM Shape := do
  let s := s.measured
  modify fun b =>
    if b.counts then b
    else
      let repeats := withRepeat b.repeats s.look
      { b with repeats, largest := max b.largest s.size, counts := maxSize / repeats ≤ b.made }
  let b ← get
  if b.counts && maxSize < max s.size b.largest then throw .size
  if maxHeight < s.height then throw .height
  return s

end Budget

namespace Shape

open Budget

/-! ## Side by side -/

/-- Joins the last two shapes if both are texts.  A size that was measured does not change. -/
def joinTexts? (counts : Bool) : List Shape → Option (List Shape)
  | s :: t :: rest =>
    match s.look, t.look with
    | .text fold new, .text fold' old =>
      if fold == fold' then
        some (node (.text fold (new ++ old)) 1 (if counts then t.size else s.size + t.size)
          [] :: rest)
      else none
    | _, _ => none
  | _ => none

/-- Puts a shape on top of those that stand in front of it, last one first. -/
def push (s : Shape) (before : List Shape) : BudgetM (List Shape) := do
  let joined := joinTexts? (← get).counts before
  match s.letter?, joined with
  | some letter, some before => return letter :: before
  | some letter, none => return (← check letter) :: before
  | none, some before =>
    release
    return (← check s) :: before
  | none, none => return (← check s) :: before

/-- A shape once more, with nothing in front of it. -/
def settle (s : Shape) : BudgetM Shape := check ((s.letter?).getD s)

/-- Joins the texts at the end of a row, behind which something else begins. -/
def endTexts (before : List Shape) : BudgetM (List Shape) := do
  match joinTexts? (← get).counts before with
  | some before =>
    release
    return before
  | none => return before

/-- The parts of shapes that look like `outer`, and the other shapes. -/
def flatten (outer : Look) : List Shape → BudgetM (List Shape)
  | [] => return []
  | s :: rest => do
    if s.look == outer then
      release
      return s.parts ++ (← flatten outer rest)
    else return s :: (← flatten outer rest)

/-- Shapes one after the other, last one first, as one shape. -/
def row (before : List Shape) : BudgetM Shape := do
  let before ← endTexts before
  match before with
  | [] =>
    make
    check empty
  | [s] => settle s
  | _ =>
    make
    settle (ofParts .row (← flatten .row before.reverse))

/-! ## Alternatives -/

/-- The letters at the front of a shape, and whether their case does not count. -/
def leadingText (s : Shape) : Bool × List Nat :=
  let first := match s.look, s.parts with
    | .row, first :: _ => first
    | _, _ => s
  match first.look with
  | .text fold reversed => (fold, reversed.reverse)
  | _ => (false, [])

/-- A text without its first `n` letters. -/
def dropLetters (counts : Bool) (n : Nat) (s : Shape) : Shape :=
  match s.look with
  | .text fold reversed =>
    let left := reversed.take (reversed.length - n)
    if left.isEmpty then empty
    else node (.text fold left) 1 (if counts then s.size else left.length) []
  | _ => s

/-- A shape without the `n` letters at its front. -/
def dropText (n : Nat) (s : Shape) : BudgetM Shape := do
  let counts := (← get).counts
  match s.look, s.parts with
  | .row, first :: rest =>
    let first := dropLetters counts n first
    if !first.isEmpty then return ofParts .row (first :: rest)
    else
      release
      match rest with
      | [] => return empty
      | [s] =>
        release
        return s
      | rest => return ofParts .row rest
  | _, _ => return dropLetters counts n s

/-- What stands first in a shape, if it is not empty. -/
def leading? (s : Shape) : Option Shape :=
  let first := match s.look, s.parts with
    | .row, first :: _ => first
    | _, _ => s
  if first.isEmpty then none else some first

/-- A shape without what stands first in it.  `kept` says whether that is used elsewhere. -/
def dropFirst (kept : Bool) (s : Shape) : BudgetM Shape := do
  if !kept then release
  match s.look, s.parts with
  | .row, _ :: rest =>
    match rest with
    | [] => return empty
    | [s] =>
      release
      return s
    | rest => return ofParts .row rest
  | _, _ =>
    make
    return empty

/-- Whether what stands first in two shapes can stand in front of both: the same set of characters,
or equally many of them. -/
def sameFirst (s t : Shape) : Bool :=
  s.look == t.look &&
    match s.look, s.parts, t.parts with
    | .times least most _, [s], [t] => most == some least && s.isSet && s.look == t.look
    | _, _, _ => s.isSet

def inFront (alternation : List Shape → BudgetM Shape) (first : Shape) (rests : List Shape) :
    BudgetM Shape := do
  let rest ← alternation (← rests.mapM check)
  make
  return ofParts .row [first, rest]

def common : List Nat → List Nat → List Nat
  | a :: s, b :: t => if a == b then a :: common s t else []
  | _, _ => []

/-- Puts the letters that alternatives beside each other have in common in front of them.  The
alternatives of `run`, last one first, begin with `letters`. -/
def shareTexts (alternation : List Shape → BudgetM Shape) (run : List Shape) (fold : Bool)
    (letters : List Nat) : List Shape → BudgetM (List Shape)
  | [] => return (← shared)
  | s :: rest => do
    let (fold', letters') := s.leadingText
    let both := if fold == fold' then common letters letters' else []
    if both.isEmpty then
      let done ← shared
      return done ++ (← shareTexts alternation [s] fold' letters' rest)
    else shareTexts alternation (s :: run) fold both rest
where
  /-- The run as one alternative, if it is more than one. -/
  shared : BudgetM (List Shape) := do
    match run with
    | [] => return []
    | [s] => return [s]
    | _ =>
      make
      let rests ← run.reverse.mapM (dropText letters.length)
      return [← inFront alternation (text fold letters.reverse) rests]

/-- Puts the characters that alternatives beside each other begin with in front of them.  The
alternatives of `run`, last one first, begin with `first`. -/
def shareSets (alternation : List Shape → BudgetM Shape) (run : List Shape) (first : Option Shape) :
    List Shape → BudgetM (List Shape)
  | [] => return (← shared)
  | s :: rest => do
    let first' := s.leading?
    let same := match first, first' with
      | some a, some b => sameFirst a b
      | _, _ => false
    if same then shareSets alternation (s :: run) first rest
    else
      let done ← shared
      return done ++ (← shareSets alternation [s] first' rest)
where
  /-- The run as one alternative, if it is more than one. -/
  shared : BudgetM (List Shape) := do
    match run.reverse, first with
    | s :: t :: rest, some first =>
      let head ← dropFirst true s
      let tail ← (t :: rest).mapM (dropFirst false)
      return [← inFront alternation first (head :: tail)]
    | run, _ => return run

/-- Makes one alternative of those beside each other that are single characters. -/
def uniteSets : List Shape → BudgetM (List Shape)
  | [] => return []
  | s :: rest => do
    match ← uniteSets rest with
    | [] => return [s]
    | next :: rest =>
      if s.isSet && next.isSet then
        release
        return s.unite next :: rest
      else return s :: next :: rest

def dropEmpty : List Shape → List Shape
  | s :: t :: rest =>
    if s.isEmpty && t.isEmpty then dropEmpty (t :: rest) else s :: dropEmpty (t :: rest)
  | shapes => shapes

/-- Alternatives as one shape, after `factor` has been applied to them. -/
def alternation (factor : List Shape → BudgetM (List Shape)) (alternatives : List Shape) :
    BudgetM Shape := do
  match alternatives with
  | [s] => return s
  | _ =>
    make
    match ← factor (← flatten .choice alternatives) with
    | [s] =>
      release
      return s
    | alternatives => return ofParts .choice alternatives

/-- Alternatives in which nothing is repeated at the front of those beside each other.  Each step
takes something off the alternatives it goes on with, so their size bounds the steps. -/
def factor : (steps : Nat) → List Shape → BudgetM (List Shape)
  | 0, alternatives => return alternatives
  | steps + 1, alternatives => do
    if alternatives.length < 2 then return alternatives
    let rest := alternation (factor steps)
    let alternatives ← shareTexts rest [] false [] alternatives
    let alternatives ← shareSets rest [] none alternatives
    return dropEmpty (← uniteSets alternatives)

/-- Puts an alternative on top of those in front of it, last one first. -/
def addAlternative (s : Shape) : List Shape → BudgetM (List Shape)
  | [] => do
    make
    return [s]
  | last :: before => do
    if s.isSet && last.isSet then
      release
      return last.unite s :: before
    else return s :: last :: before

/-- The alternatives of a group, last one first, as one shape. -/
def choice (alternatives : List Shape) : BudgetM Shape := do
  let steps := alternatives.foldl (fun n s => n + s.size) 1
  settle (← alternation (factor steps) alternatives.reverse)

end Shape

end UiCodegen.Pattern
