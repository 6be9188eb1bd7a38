import UiCodegen.Project.Inputs
import UiCodegen.Text.Duration

/-!
# Running a project

A run loads the inputs, generates a source file and a header, and writes both.  What it reports
while it works is collected with its result.
-/

namespace UiCodegen.Project

variable {m : Type → Type} [Monad m] [Host m]

/-- Computations of a run: they may fail, and what they report stays in either case. -/
abbrev Action (m : Type → Type) := ExceptT Fault (StateT (List Log.Record) m)

def report (records : List Log.Record) : Action m Unit := modify (· ++ records)

def settle {α : Type} (result : Except Fault α) : Action m α := liftExcept result

def Action.outcome {α : Type} (action : Action m α) : m (Except Fault α × List Log.Record) :=
  action.run.run []

/-- A generated file. -/
structure File where
  name : Bytes
  content : Bytes
  deriving DecidableEq, Repr

/-- The summary of a run. -/
structure Result where
  mode : Mode
  /-- The paths of the written files, source first. -/
  files : List Bytes := []
  function : Bytes := []
  entities : Nat := 0
  included : Nat := 0
  /-- The functions that it cannot call, each with the reason. -/
  skipped : List (Api.FunctionInfo × Bytes) := []
  groups : Nat := 0
  enumEntries : Nat := 0
  diagnostics : List Transpile.Diagnostic := []
  /-- How long the run took, in nanoseconds. -/
  duration : Nat := 0

def enumTable (s : Settings) (inputs : Inputs) : Action m EnumTable := do
  let table :=
    EnumTable.ofSources inputs.index (s.defines.getD EnumTable.defaultDefines) inputs.values
  let collisions := table.collisions.length
  if collisions != 0 then
    report [{ level := .debug, message := "enum table hash collisions"
              attributes := [("groups", Bytes.ofNat collisions)] }]
  return table

def transpile (plan : Plan) (inputs : Inputs) (enums : EnumTable) :
    Except Fault (Result × List File) × List Log.Record :=
  let s := plan.settings
  let cfg := Transpile.Settings.make inputs.index enums plan.filter s.uiName s.parentParam s.ui
  match Transpile.transpile cfg inputs.ui with
  | (.error failure, logs) => (.error (.transpile s.ui failure), logs)
  | (.ok o, logs) =>
    (.ok ({ mode := .transpile, function := o.function, entities := o.entities
            diagnostics := o.diagnostics },
          [⟨o.sourceFile, o.source⟩, ⟨o.headerFile, o.header⟩]), logs)

def interpreter (plan : Plan) (inputs : Inputs) (enums : EnumTable) :
    Except Fault (Result × List File) × List Log.Record :=
  let s := plan.settings
  let ui := match inputs.ui with
    | .null => none
    | doc => some doc
  match Interpreter.generate
    { index := inputs.index, enums, filter := plan.filter, maxUserEnums := s.maxUserEnums, ui
      source := s.ui } with
  | (.error fault, logs) => (.error (.interpreter fault), logs)
  | (.ok o, logs) =>
    (.ok ({ mode := .preview, included := o.included.length, skipped := o.skipped
            groups := o.groups, enumEntries := o.enumEntries, diagnostics := o.diagnostics },
          [⟨Interpreter.sourceFile, o.source⟩, ⟨Interpreter.headerFile, o.header⟩]), logs)

def generate (plan : Plan) (inputs : Inputs) (enums : EnumTable) :
    Except Fault (Result × List File) × List Log.Record :=
  match plan.mode with
  | .transpile => transpile plan inputs enums
  | .preview => interpreter plan inputs enums

def writeFile (path content : Bytes) : Action m (Option Fault) := do
  match ← (Host.writeFile path content : m _) with
  | .error fault => return some (.write path fault)
  | .ok () =>
    report [{ level := .debug, message := "wrote file"
              attributes := [("path", path), ("bytes", Bytes.ofNat content.length)] }]
    return none

/-- Writes files into a directory, which is created if need be.  A file that cannot be written does
not keep the others from being written. -/
def writeFiles (dir : Bytes) (files : List File) : Action m Unit := do
  match ← (Files.ensureDirectory dir : m _) with
  | .error fault => throw (.outputDirectory fault)
  | .ok () =>
    let faults ← files.filterMapM fun f => writeFile (Path.inside dir f.name) f.content
    match faults with
    | [] => return
    | fault :: _ => throw fault

/-- Loads the inputs, generates and writes the files. -/
def run (plan : Plan) : Action m Result := do
  let start ← (Host.clock : m _)
  let s := plan.settings
  let inputs ← settle (← (loadInputs s : m _))
  let enums ← enumTable s inputs
  let (generated, logs) := generate plan inputs enums
  report logs
  let (result, files) ← settle generated
  writeFiles s.outputDir files
  let stop ← (Host.clock : m _)
  let result := { result with
    files := files.map fun f => Path.inside s.outputDir f.name
    duration := stop - start }
  report [{ level := .info, message := "generation complete"
            attributes := [("mode", result.mode.name), ("files", Bytes.ofNat result.files.length),
              ("warnings", Bytes.ofNat result.diagnostics.length),
              ("duration", Duration.text result.duration)] }]
  return result

/-! ## Inspection -/

/-- What an interpreter would hold. -/
structure Inspection where
  included : List Api.FunctionInfo
  skipped : List (Api.FunctionInfo × Bytes)
  filtered : Nat
  groups : List Api.SignatureGroup
  enums : List EnumTable.Entry

/-- Loads the inputs and tells what an interpreter would hold, without writing anything.  If no
function is included, all functions are grouped. -/
def inspect (plan : Plan) : Action m Inspection := do
  let inputs ← settle (← (loadInputs plan.settings : m _))
  let selection := ((inputs.index.select plan.filter).run []).1
  let grouped := if selection.included.isEmpty then inputs.index.functions else selection.included
  let enums ← enumTable plan.settings inputs
  return { included := selection.included, skipped := selection.skipped
           filtered := selection.filtered, groups := Api.groupBySignature grouped
           enums := enums.entries }

/-! ## Watching -/

def inputDirectories (s : Settings) : m (List Bytes) := do
  let dir ← Host.workingDirectory
  return (s.inputPaths.map fun path => Path.directory (Path.absoluteFrom dir path)).eraseDups

/-- The first directory of an input file that cannot be watched. -/
def unwatchable? (s : Settings) : m (Option Fault) := do
  let dirs ← inputDirectories s
  let faults ← dirs.filterMapM fun (dir : Bytes) => do
    match ← (Host.kind dir : m _) with
    | .error cause => return some (Fault.watch dir cause)
    | .ok _ => return none
  return faults.head?

/-- Starts to watch the inputs: the first run, whose failure does not end the watch. -/
def watch (plan : Plan) : Action m (Except Fault Result) := do
  match ← (unwatchable? plan.settings : m _) with
  | some fault => throw fault
  | none =>
    try return .ok (← run plan)
    catch fault => return .error fault

end UiCodegen.Project
