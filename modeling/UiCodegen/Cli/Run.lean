import UiCodegen.Cli.Completion
import UiCodegen.Config.Check
import UiCodegen.Config.Load
import UiCodegen.Report.Inspection
import UiCodegen.Report.LogLine
import UiCodegen.Report.Summary

/-!
# The command line

Runs a command: reads its options, loads the configuration, does the work and reports on it.  All
text is part of the outcome; printing it is left to the caller.
-/

namespace UiCodegen.Cli

/-- Why a command fails. -/
inductive Fault where
  | unknownCommand (name : Bytes)
  | options (fault : OptFault)
  | tooMany (limit given : Nat)
  | wrongCount (expected given : Nat)
  | tooFew (least given : Nat)
  | badArgument (argument : Bytes) (command : Command)
  | config (fault : Config.Fault)
  | unknownFormat (name : Bytes)
  | invalid (fault : Config.Invalid)
  | settings (fault : Project.Settings.Fault)
  | generate (fault : Project.Fault)
  | inspect (fault : Project.Fault)
  | watch (fault : Project.Fault)
  | noScript (shell : Bytes)
  deriving DecidableEq, Repr

def suggestionLine (c : Command) : Bytes := 9 :: c.name ++ [10]

/-- The commands that someone may have meant, for a message. -/
def suggestionText (typed : Bytes) : Bytes :=
  match Command.suggestions typed with
  | [] => []
  | found => "\n\nDid you mean this?\n" ++ found.flatMap suggestionLine

def generateContext : Bytes := "generation failed: "

def inspectContext : Bytes := "inspect failed: "

def Fault.message : Fault → Bytes
  | unknownCommand name =>
    "unknown command " ++ Quoted.quote name ++ " for " ++ Quoted.quote program ++
      suggestionText name
  | options fault => fault.message
  | tooMany limit given =>
    "accepts at most " ++ Bytes.ofNat limit ++ " arg(s), received " ++ Bytes.ofNat given
  | wrongCount expected given =>
    "accepts " ++ Bytes.ofNat expected ++ " arg(s), received " ++ Bytes.ofNat given
  | tooFew least given =>
    "requires at least " ++ Bytes.ofNat least ++ " arg(s), only received " ++ Bytes.ofNat given
  | badArgument argument command =>
    "invalid argument " ++ Quoted.quote argument ++ " for " ++
      Quoted.quote (program ++ " " ++ command.name)
  | config fault => fault.message
  | unknownFormat name =>
    "unknown output format " ++ Quoted.quote name ++ " (want auto, text, markdown or json)"
  | invalid fault => fault.message
  | settings fault => "invalid configuration: " ++ fault.message
  | generate fault => generateContext ++ fault.message
  | inspect fault => inspectContext ++ fault.message
  | watch fault => fault.message
  | noScript shell => "no completion script for " ++ shell

/-- A watch that was started: what is run again when an input changes. -/
structure Watch where
  plan : Project.Plan
  surface : Report.Surface
  level : Log.Level
  debounce : Nat

/-- What a command leads to. -/
structure Outcome where
  printed : Report.Printed := {}
  fault : Option Fault := none
  watch : Option Watch := none

def Outcome.done (printed : Report.Printed) : Outcome := { printed }

def Outcome.failed (fault : Fault) (messages : Bytes := []) : Outcome :=
  { printed := { messages }, fault := some fault }

/-- Nanoseconds to wait after a change, if nothing else is given. -/
def defaultDebounce : Nat := 100 * Duration.millisecond

variable {m : Type → Type} [Monad m] [Host m]

/-! ## Commands that need no configuration -/

def tagline : Bytes := "LVGL UI generator: JSON documents to C\n"

def helpText (c : Command) : Bytes :=
  let row (name usage : Bytes) : Bytes := "  " ++ Bytes.padRight 24 name ++ usage ++ "\n"
  c.summary ++ "\n\n" ++
  (if c == .root then "Commands:\n" ++ (Command.listed.flatMap fun c => row c.name c.summary) ++
    "\n"
   else []) ++
  "Options:\n" ++ (c.options.flatMap fun o => row o.title o.usage)

/-- The variables that tell whether completions have descriptions; the first one that is not empty
counts. -/
def descriptionVariables : List Bytes :=
  [Config.variableHead ++ "COMPLETION_DESCRIPTIONS", "COBRA_COMPLETION_DESCRIPTIONS"]

/-- The name under which completions are asked for.  It may stand again among the arguments that are
to be completed, and then that one counts. -/
def requestName (called rest : List Bytes) : Bytes :=
  let names := [rest.dropLast, called].filterMap fun args => (Command.positional args).head?
  (names.find? fun name => Command.ofName? name == some .complete).getD []

def wantsDescriptions (called rest : List Bytes) : m Bool := do
  if requestName called rest == Command.bareComplete then return false
  let environment ← Host.environment
  let values := descriptionVariables.filterMap (environment.lookup ·)
  return (values.find? (!·.isEmpty)).bind Document.Yaml.boolOf? != some false

def protocolVariable : Bytes := "BASH_COMP_DEBUG_FILE"

/-- Adds a complaint to the protocol of completions, if there is one. -/
def record (complaint : Complaint) : m Unit := do
  let path := ((← Host.environment).lookup protocolVariable).getD []
  if !path.isEmpty then Files.append path complaint.line

def complete (called rest : List Bytes) : m Outcome := do
  if rest.isEmpty then return .failed (.tooFew 1 0)
  let found := Completions.ofArgs rest
  found.complaint.forM record
  return .done
    { results := found.text (← wantsDescriptions called rest)
      messages := "Completion ended with directive: " ++ found.directive.name ++ "\n" }

/-! ## Commands with a configuration -/

/-- The value of an option as a setting.  A list is handed over as a text of comma-separated values.
-/
def handedOver : Config.Setting → Config.Setting
  | .list items => .list ((Csv.reread (items.filterMap Config.Setting.asText?)).map .text)
  | v => v

def settingsOf (p : Parsed) : Config.Source :=
  (p.values.filter fun (name, _) => (named? Command.commonOptions name).isSome).map fun (name, v) =>
    (Bytes.replaceByte 45 "_" name, handedOver v)

def withArguments (c : Config) (args : List Bytes) : Config :=
  { c with api := args.getD 0 c.api, outputDir := args.getD 1 c.outputDir }

def planOf (c : Config) : m (Except Fault Project.Plan) := do
  match c.invalid? with
  | some fault => return .error (.invalid fault)
  | none =>
    match ← c.missingFile? with
    | some fault => return .error (.invalid fault)
    | none => return (Project.Plan.make c.project).mapError .settings

def watchReport (surface : Report.Surface) (dir : Bytes) :
    Except Project.Fault Project.Result → Report.Printed
  | .ok result => Report.run surface dir result
  | .error fault => surface.failure (generateContext ++ fault.message)

def Watch.rerun (w : Watch) : m Report.Printed := do
  let dir ← Host.workingDirectory
  let (result, logs) ← (Project.run w.plan).outcome
  return { messages := Log.lines w.level logs } ++ watchReport w.surface dir result

def generate (surface : Report.Surface) (level : Log.Level) (p : Parsed) (c : Config) :
    m Outcome := do
  match ← planOf (withArguments c p.rest) with
  | .error fault => return .failed fault
  | .ok plan =>
    let dir ← Host.workingDirectory
    if !p.isOn "watch" then
      let (result, logs) ← (Project.run plan).outcome
      let messages := Log.lines level logs
      match result with
      | .error fault => return .failed (.generate fault) messages
      | .ok result => return .done ({ messages } ++ Report.run surface dir result)
    else
      let notice : Report.Printed :=
        if surface.effective == .json then {}
        else .resultLine (surface.styled "Watching inputs, press Ctrl+C to stop")
      let (result, logs) ← (Project.watch plan).outcome
      let printed := notice ++ { messages := Log.lines level logs }
      match result with
      | .error fault => return { printed, fault := some (.watch fault) }
      | .ok result =>
        let debounce :=
          if 0 < p.number "debounce" then (p.number "debounce").toNat else defaultDebounce
        return { printed := printed ++ watchReport surface dir result
                 watch := some { plan, surface, level, debounce } }

/-- Tells what an interpreter would hold.  No UI document is read and nothing is written. -/
def inspect (surface : Report.Surface) (level : Log.Level) (p : Parsed) (c : Config) :
    m Outcome := do
  let c := withArguments c p.rest
  let c := { c with
    mode := Project.Mode.preview.name
    ui := []
    outputDir := if c.outputDir.isEmpty then Path.here else c.outputDir }
  match ← planOf c with
  | .error fault => return .failed fault
  | .ok plan =>
    let (result, logs) ← (Project.inspect plan).outcome
    let messages := Log.lines level logs
    match result with
    | .error fault => return .failed (.inspect fault) messages
    | .ok i =>
      let parts : Report.InspectionParts :=
        { enums := p.isOn "enums", functions := p.isOn "functions" }
      return .done ({ messages } ++ Report.inspection surface parts i)

/-- Loads the configuration, and runs what needs it. -/
def withConfig (terminal : Bool) (p : Parsed)
    (work : Report.Surface → Log.Level → Config → m Outcome) : m Outcome := do
  match ← Config.load (p.text "config") (settingsOf p) with
  | .error fault => return .failed (.config fault)
  | .ok loaded =>
    let c := loaded.config
    let format := Report.Format.ofName c.format
    if !format.isKnown then return .failed (.unknownFormat c.format)
    let level : Log.Level := if c.debug then .debug else .info
    let notice : List Log.Record := match loaded.file with
      | none => []
      | some path =>
          [{ level := .debug, message := "using config file", attributes := [("path", path)] }]
    let outcome ← work { format, terminal } level c
    return { outcome with printed := { messages := Log.lines level notice } ++ outcome.printed }

def badArguments? (c : Command) (args : List Bytes) : Option Fault :=
  match c with
  | .generate => if 2 < args.length then some (.tooMany 2 args.length) else none
  | .inspect => if 1 < args.length then some (.tooMany 1 args.length) else none
  | .completion =>
    if args.length != 1 then some (.wrongCount 1 args.length)
    else (args.find? (!Command.shells.contains ·)).map fun arg => .badArgument arg c
  | _ => none

def execute (terminal : Bool) (c : Command) (p : Parsed) : m Outcome := do
  if p.isOn "help" then return .done { results := helpText c }
  if c == .root && p.isOn "version" then
    return .done { results := program ++ " " ++ version ++ "\n" ++ tagline }
  match badArguments? c p.rest with
  | some fault => return .failed fault
  | none =>
    match c with
    | .version => withConfig terminal p fun _ _ _ =>
        return .done { results := program ++ " v" ++ version ++ "\n" ++ tagline }
    | .generate => withConfig terminal p fun surface level cfg => generate surface level p cfg
    | .inspect => withConfig terminal p fun surface level cfg => inspect surface level p cfg
    | .completion => return .failed (.noScript (p.rest.headD []))
    | _ =>
      match Command.find p.rest with
      | .ok (topic, _) => return .done { results := helpText topic }
      | .error _ => return .done { results := helpText .root }

/-- Runs the program with its arguments.  `terminal` tells whether results are shown on one. -/
def run (terminal : Bool) (args : List Bytes) : m Outcome := do
  match Command.find args with
  | .error name => return .failed (.unknownCommand name)
  | .ok (.complete, rest) => complete args rest
  | .ok (c, rest) =>
    match parse c.options rest with
    | .error fault => return .failed (.options fault)
    | .ok p => execute terminal c p

end UiCodegen.Cli
