import UiCodegen.Api.Decode
import UiCodegen.Document.Yaml.Decode
import UiCodegen.Project.Fault
import UiCodegen.Project.Settings

/-!
# Inputs of a run

The files a run reads: the API description, the UI document and supplementary constants.
-/

namespace UiCodegen.Project

/-- The documents of one run. -/
structure Inputs where
  index : Api.Index
  ui : Value := .null
  values : List EnumTable.Entry := []

variable {m : Type → Type} [Monad m] [Host m]

def decodeFile (path content : Bytes) : Except Document.Fault Value :=
  let extension := Bytes.toLower (Path.extension path)
  let decoded :=
    if extension == ".yaml" || extension == ".yml" then Document.Yaml.decode content
    else Document.Json.decode content
  match decoded with
  | .ok v => .ok v
  | .error fault => .error { fault with file := path }

/-- Loads the API description.  A directory can be opened, but is no description. -/
def loadApi (path : Bytes) : m (Except Fault Api.Index) := do
  match ← Host.readFile path with
  | .error fault =>
    return .error (if fault.operation == .readFile then .decodeApi path else .openApi fault)
  | .ok content =>
    match Api.Description.decode? content with
    | none => return .error (.decodeApi path)
    | some d => return .ok (.ofDescription d)

def loadUi (path : Bytes) : m (Except Fault Value) := do
  if path.isEmpty then return .ok .null
  match ← Host.readFile path with
  | .error fault => return .error (.readUi fault)
  | .ok content => return (decodeFile path content).mapError .decodeUi

def loadValues (path : Bytes) : m (Except Fault (List EnumTable.Entry)) := do
  if path.isEmpty then return .ok []
  match ← Host.readFile path with
  | .error fault => return .error (.readValues fault)
  | .ok content =>
    match decodeFile path content with
    | .error fault => return .error (.decodeValues fault)
    | .ok doc => return (EnumTable.valuesOf doc).mapError (.values path)

def loadInputs (s : Settings) : m (Except Fault Inputs) := do
  let index ← loadApi s.api
  let ui ← loadUi s.ui
  let values ← loadValues s.enumValues
  return do
    let values ← values
    let ui ← ui
    let index ← index
    return { index, ui, values }

end UiCodegen.Project
