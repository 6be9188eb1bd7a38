import UiCodegen.Bytes

/-!
# Log records

What a run reports while it works: a level, a message and named attributes.  Records are values that
the operations return; writing them anywhere is left to the outermost layer.
-/

namespace UiCodegen.Log

/-- How important a record is. -/
inductive Level where
  | debug
  | info
  | warn
  deriving DecidableEq, Repr

def Level.name : Level → Bytes
  | .debug => "DEBUG"
  | .info => "INFO"
  | .warn => "WARN"

/-- The rank of a level; more important ones are higher. -/
def Level.rank : Level → Nat
  | .debug => 0
  | .info => 1
  | .warn => 2

/-- One record; attributes keep their order. -/
structure Record where
  level : Level
  message : Bytes
  attributes : List (Bytes × Bytes) := []
  deriving DecidableEq, Repr

/-- The records that are at least as important as `level`. -/
def atLeast (level : Level) (records : List Record) : List Record :=
  records.filter fun r => level.rank ≤ r.level.rank

/-- Puts attributes in front of those of each record. -/
def withAttributes (attributes : List (Bytes × Bytes)) (records : List Record) : List Record :=
  records.map fun r => { r with attributes := attributes ++ r.attributes }

end UiCodegen.Log
