import UiCodegen.Api.Representable
import UiCodegen.Pattern.Parse
import UiCodegen.Text.Quoted

/-!
# Choosing functions

A filter selects functions by name.  What it selects is divided again: functions that documents can
call are included, the others are skipped with a reason.
-/

namespace UiCodegen.Api

/-- A filter by name. -/
structure Filter where
  /-- A name has to match one of these, if there are any. -/
  wanted : List Pattern := []
  /-- A name must match none of these. -/
  unwanted : List Pattern := []

/-- Which list a pattern that cannot be read stands in. -/
inductive Filter.Side where
  | wanted | unwanted
  deriving DecidableEq, Repr

/-- A pattern that cannot be read. -/
structure Filter.Fault where
  side : Filter.Side
  pattern : Bytes
  fault : Pattern.Fault
  deriving DecidableEq, Repr

namespace Filter

/-- The text of a fault. -/
def Fault.message (f : Fault) : Bytes :=
  "invalid " ++ (match f.side with
    | .wanted => Bytes.ofString "include"
    | .unwanted => Bytes.ofString "exclude") ++
  " pattern " ++ Quoted.quote f.pattern ++ ": " ++ f.fault.message

/-- Reads the patterns of one side. -/
def compileSide (side : Side) (patterns : List Bytes) : Except Fault (List Pattern) :=
  patterns.mapM fun pattern =>
    match Pattern.parse pattern with
    | .ok p => .ok p
    | .error fault => .error { side, pattern, fault }

/-- Reads the patterns of both sides. -/
def compile (wanted unwanted : List Bytes) : Except Fault Filter := do
  let wanted ← compileSide .wanted wanted
  let unwanted ← compileSide .unwanted unwanted
  pure { wanted, unwanted }

/-- Whether a filter lets a name through. -/
def allows (f : Filter) (name : Bytes) : Bool :=
  !f.unwanted.any (·.matchesText name) &&
    (f.wanted.isEmpty || f.wanted.any (·.matchesText name))

end Filter

/-- The outcome of a filter. -/
structure Selection where
  included : List FunctionInfo := []
  /-- Functions that cannot be called, each with the reason. -/
  skipped : List (FunctionInfo × Bytes) := []
  filtered : Nat := 0

namespace Selection

/-- Whether a function was selected. -/
def has (s : Selection) (name : Bytes) : Bool := s.included.any (·.name == name)

end Selection

namespace Index

/-- Adds functions to a selection, which holds the earlier ones last first. -/
def selectFrom (ix : Index) (filter : Filter) (s : Selection) :
    List FunctionInfo → StateM Sizes Selection
  | [] => pure { s with included := s.included.reverse, skipped := s.skipped.reverse }
  | f :: rest => do
    if !filter.allows f.name then ix.selectFrom filter { s with filtered := s.filtered + 1 } rest
    else match ← ix.unrepresentable? f with
      | some u => ix.selectFrom filter { s with skipped := (f, u.reason) :: s.skipped } rest
      | none => ix.selectFrom filter { s with included := f :: s.included } rest

/-- The functions that a filter lets through, if they are representable. -/
def select (ix : Index) (filter : Filter := {}) : StateM Sizes Selection :=
  ix.selectFrom filter {} ix.functions

end Index

end UiCodegen.Api
