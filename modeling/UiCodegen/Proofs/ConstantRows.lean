import UiCodegen.Proofs.CanonicalTypes
import UiCodegen.Proofs.ConstantLookup
import UiCodegen.Proofs.Coverage
import UiCodegen.Proofs.Embedding
import UiCodegen.Proofs.CItems
import UiCodegen.Proofs.Writing

/-!
# The rows of constants

The generated source holds a row for each constant: the hash of its name, its name as a string
literal, and its C expression.  The interpreter compares strings with the name that it finds there.
Name and expression are written as they are, so a compiler finds the constants in the table if and
only if each name means itself in a literal and each expression is one initializer.
-/

namespace UiCodegen.Interpreter

open EnumTable (Entry ofSources apiEntries defineEntries djb2 valuesOf)

/-! ## Reading rows -/

variable {e : Entry} {rest behind : Bytes}

/-- An expression may close its row and open another one. -/
example : ¬ C.Single "1\x7d, \x7b0u, \"GHOST\", 2" := by decide +kernel

end UiCodegen.Interpreter
