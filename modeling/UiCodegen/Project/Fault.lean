import UiCodegen.EnumTable.Sources
import UiCodegen.Files.Host
import UiCodegen.Interpreter.Output

/-!
# Why a run fails

Every way in which a configured run can end without its result.
-/

namespace UiCodegen.Project

/-- A run that failed. -/
inductive Fault where
  | openApi (fault : Files.Fault)
  | decodeApi (path : Bytes)
  /-- The UI document cannot be read. -/
  | readUi (fault : Files.Fault)
  | decodeUi (fault : Document.Fault)
  /-- The supplementary constants cannot be read. -/
  | readValues (fault : Files.Fault)
  | decodeValues (fault : Document.Fault)
  /-- The supplementary constants are not constants. -/
  | values (path : Bytes) (fault : EnumTable.ValuesFault)
  /-- The document cannot be transpiled. -/
  | transpile (source : Bytes) (failure : Transpile.Failure)
  | interpreter (fault : Interpreter.Fault)
  | outputDirectory (fault : Files.Fault)
  /-- A generated file cannot be written. -/
  | write (path : Bytes) (fault : Files.Fault)
  /-- The directory of an input cannot be watched. -/
  | watch (dir : Bytes) (cause : Files.Cause)
  deriving DecidableEq, Repr

def Fault.message : Fault → Bytes
  | openApi fault => "failed to open API description: " ++ fault.message
  | decodeApi path => path ++ ": failed to decode API description"
  | readUi fault => "failed to read UI document: " ++ fault.message
  | decodeUi fault => fault.message
  | readValues fault => "failed to load enum values: failed to read UI document: " ++ fault.message
  | decodeValues fault => "failed to load enum values: " ++ fault.message
  | values path fault => "failed to load enum values: " ++ path ++ ": " ++ fault.message
  | transpile source failure => failure.messageIn source
  | interpreter fault => fault.message
  | outputDirectory fault => "failed to create output directory: " ++ fault.message
  | write path fault => "failed to write " ++ path ++ ": " ++ fault.message
  | watch dir cause => "failed to watch " ++ dir ++ ": " ++ cause.message

end UiCodegen.Project
