import UiCodegen.Config.Basic
import UiCodegen.Files.Host

/-!
# Checks of a configuration

What is checked before a command starts to work: that the settings make sense together, and that the
input files are there.
-/

namespace UiCodegen.Config

/-- What is wrong with a configuration. -/
inductive Invalid where
  | unknownMode (name : Bytes)
  | missingApi
  | missingOutputDir
  | missingUi
  | negativeEnums (n : Int)
  | badPattern (fault : Api.Filter.Fault)
  | missingFile (setting path : Bytes)
  deriving DecidableEq, Repr

def Invalid.message : Invalid → Bytes
  | unknownMode name => Project.unknownModeMessage name
  | missingApi =>
    "api is required\nHint: pass the API description as the first argument or " ++
      "set api in lvglgen.yaml"
  | missingOutputDir =>
    "output_dir is required\nHint: pass the output directory as the second argument or " ++
      "set output_dir in lvglgen.yaml"
  | missingUi => "c_transpile mode requires a UI document\nHint: use --ui or set ui in lvglgen.yaml"
  | negativeEnums n => "max_user_enums must not be negative, got " ++ Bytes.ofInt n
  | badPattern fault => fault.message
  | missingFile setting path => setting ++ " file does not exist: " ++ path

/-- The first fault of the settings, if there is one. -/
def invalid? (c : Config) : Option Invalid :=
  if !c.mode.isEmpty && (Project.Mode.ofName? c.mode).isNone then some (.unknownMode c.mode)
  else if c.api.isEmpty then some .missingApi
  else if c.outputDir.isEmpty then some .missingOutputDir
  else if Project.Mode.ofName? c.mode == some .transpile && c.ui.isEmpty then some .missingUi
  else if c.maxUserEnums < 0 then some (.negativeEnums c.maxUserEnums)
  else match Api.Filter.compile c.wanted c.unwanted with
    | .error fault => some (.badPattern fault)
    | .ok _ => none

def inputFiles (c : Config) : List (Bytes × Bytes) :=
  let all : List (Bytes × Bytes) := [("api", c.api), ("ui", c.ui), ("enum_values", c.enumValues)]
  all.filter fun (_, path) => !path.isEmpty

def missingFile? {m : Type → Type} [Monad m] [Host m] (c : Config) : m (Option Invalid) := do
  let missing ← c.inputFiles.filterMapM fun ((setting, path) : Bytes × Bytes) => do
    match ← (Host.kind path : m _) with
    | .error .missing => return some (Invalid.missingFile setting path)
    | _ => return none
  return missing.head?

end UiCodegen.Config
