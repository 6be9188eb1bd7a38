import UiCodegen.Api.Filter
import UiCodegen.Files.Path
import UiCodegen.Text.SnakeCase
import UiCodegen.Transpile.Output

/-!
# Settings of a project

What a generation run is configured with: the input files, the output directory, what is generated
and which functions are used.  Settings are checked once; what passes is a plan.
-/

namespace UiCodegen.Project

/-- What is generated. -/
inductive Mode where
  /-- A program that interprets documents when it runs. -/
  | preview
  | transpile
  deriving DecidableEq, Repr

def Mode.name : Mode → Bytes
  | preview => "preview"
  | transpile => "c_transpile"

def Mode.ofName? (name : Bytes) : Option Mode :=
  if name == Mode.preview.name then some preview
  else if name == Mode.transpile.name then some transpile
  else none

/-- The settings of a project; texts may be empty. -/
structure Settings where
  api : Bytes := []
  outputDir : Bytes := []
  ui : Bytes := []
  mode : Bytes := []
  /-- The exported definitions; the default ones if not given. -/
  defines : Option (List Bytes) := none
  enumValues : Bytes := []
  name : Bytes := []
  parentParam : Bytes := []
  wanted : List Bytes := []
  /-- Patterns of the functions not to use. -/
  unwanted : List Bytes := []
  /-- The number of constants that an interpreter can add when it runs. -/
  maxUserEnums : Int := 0
  deriving DecidableEq, Repr

/-- Why settings cannot be used. -/
inductive Settings.Fault where
  | unknownMode (name : Bytes)
  | missingApi
  | missingOutputDir
  | missingUi
  | badPattern (fault : Api.Filter.Fault)
  deriving DecidableEq, Repr

def unknownModeMessage (name : Bytes) : Bytes :=
  "unknown mode " ++ Quoted.quote name ++ " (want " ++ Mode.preview.name ++ " or " ++
    Mode.transpile.name ++ ")"

def Settings.Fault.message : Settings.Fault → Bytes
  | unknownMode name => unknownModeMessage name
  | missingApi => "an API description path is required"
  | missingOutputDir => "an output directory is required"
  | missingUi => "c_transpile mode requires a UI document"
  | badPattern fault => fault.message

/-- The pattern of the functions that are used if none is given. -/
def defaultPattern : Bytes := "^lv_"

/-- Settings that passed all checks. -/
structure Plan where
  settings : Settings
  mode : Mode
  filter : Api.Filter

/-- Checks settings.  Without a mode, an interpreter is generated. -/
def Plan.make (s : Settings) : Except Settings.Fault Plan :=
  match (if s.mode.isEmpty then some .preview else Mode.ofName? s.mode) with
  | none => .error (.unknownMode s.mode)
  | some mode =>
    if s.api.isEmpty then .error .missingApi
    else if s.outputDir.isEmpty then .error .missingOutputDir
    else if mode == .transpile && s.ui.isEmpty then .error .missingUi
    else
      let wanted := if s.wanted.isEmpty then [defaultPattern] else s.wanted
      match Api.Filter.compile wanted s.unwanted with
      | .error fault => .error (.badPattern fault)
      | .ok filter => .ok { settings := s, mode, filter }

def Settings.uiName (s : Settings) : Bytes :=
  if !s.name.isEmpty then s.name
  else if s.ui.isEmpty then Transpile.defaultName
  else SnakeCase.snake (Path.stem s.ui)

def Settings.inputPaths (s : Settings) : List Bytes :=
  [s.api, s.ui, s.enumValues].filter (!·.isEmpty)

end UiCodegen.Project
