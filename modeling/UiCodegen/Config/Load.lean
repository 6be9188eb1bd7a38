import UiCodegen.Config.Basic
import UiCodegen.Config.File
import UiCodegen.Files.Host

/-!
# Loading a configuration

Settings come from four places: defaults, a file, environment variables and options of the command
line.  Later ones win.  The file is given, or it is the first with one of the known names in the
working directory or in a directory above it.
-/

namespace UiCodegen.Config

variable (environment : List (Bytes × Bytes))

def fileNames : List Bytes := ["lvglgen.yaml", "lvglgen.yml"]

def variableHead : Bytes := "LVGLGEN_"

def searchDepth : Nat := 10

def pathSettings : List Bytes := ["api", "output_dir", "ui", "enum_values"]

/-- Why there is no configuration. -/
inductive Fault where
  | unreadable (path : Bytes) (fault : Files.Fault)
  /-- The file holds no settings. -/
  | malformed (path : Bytes)
  /-- A setting does not fit its type. -/
  | unfit
  deriving DecidableEq, Repr

def Fault.message : Fault → Bytes
  | unreadable path fault => "error reading config file " ++ path ++ ": " ++ fault.message
  | malformed path => "error reading config file " ++ path ++ ": not a mapping of settings"
  | unfit => "unable to decode config"

/-! ## Variables -/

/-- The name of a variable at the front of a text, behind `$` and an opening brace, and what follows
the closing brace. -/
def reference? (s : Bytes) : Option (Bytes × Bytes) :=
  match s with
  | 36 :: 123 :: rest =>
    match Bytes.cut? 125 rest with
    | some (name, rest) => if name.isEmpty then none else some (name, rest)
    | none => none
  | _ => none

/-- Replaces references to variables that are set and not empty.  A text has no more references than
octets. -/
def expandFrom (environment : List (Bytes × Bytes)) : (length : Nat) → Bytes → Bytes
  | 0, s => s
  | _, [] => []
  | length + 1, b :: s =>
    match reference? (b :: s) with
    | some (name, rest) =>
      let value := (environment.lookup name).getD []
      (if value.isEmpty then [36, 123] ++ name ++ [125] else value) ++
        expandFrom environment length rest
    | none => b :: expandFrom environment length s

/-- Replaces references to variables that are set and not empty. -/
def expand (s : Bytes) :
    Bytes := expandFrom environment s.length s

def ofVariable? (name value : Bytes) : Option (Bytes × Setting) :=
  match Bytes.dropHead? name variableHead with
  | none => none
  | some rest =>
    let key := Fold.smallText rest
    if key.isEmpty then none
    else match Bytes.cut? 46 key with
      | some (outer, inner) => some (outer, .table [(.text inner, .text value)])
      | none => some (key, .text value)

def ofVariables : Source :=
  environment.filterMap fun (name, value) => ofVariable? name value

/-! ## The file -/

variable {m : Type → Type} [Monad m] [Host m]

/-- A directory and those above it, as far as a file is looked for. -/
def searchPath : (depth : Nat) → (dir : Bytes) → List Bytes
  | 0, _ => []
  | depth + 1, dir =>
    let parent := Path.directory dir
    dir :: if parent == dir then [] else searchPath depth parent

def firstThere? : (paths : List Bytes) → m (Option Bytes)
  | [] => return none
  | path :: rest => do if ← Files.isThere path then return some path else firstThere? rest

def findFile? (given : Bytes) : m (Option Bytes) := do
  if !given.isEmpty then return some given
  let dirs := searchPath searchDepth (← Host.workingDirectory)
  firstThere? (dirs.flatMap fun dir => fileNames.map (Path.inside dir))

/-- Settings with paths relative to `dir` made absolute. -/
def resolvePaths (dir : Bytes) (s : Source) : Source :=
  s.map fun (key, v) =>
    if pathSettings.contains key then
      let path := expand environment v.asPath
      (key, .text (if path.isEmpty || Path.isAbsolute path then path else Path.inside dir path))
    else (key, v)

def readFile (path : Bytes) : m (Except Fault Source) := do
  match ← Host.readFile path with
  | .error fault => return .error (.unreadable path fault)
  | .ok content =>
    match Source.ofYaml? content with
    | none => return .error (.malformed path)
    | some settings =>
      let dir := Path.absoluteFrom (← Host.workingDirectory) (Path.directory path)
      return .ok (resolvePaths (← Host.environment) dir settings)

/-- A configuration, and the file that it was read from. -/
structure Loaded where
  config : Config
  file : Option Bytes := none
  deriving Repr

/-- Loads the configuration.  `given` is the path of the file, if it is not empty; `options` are the
settings of the command line. -/
def load (given : Bytes) (options : Source) : m (Except Fault Loaded) := do
  let file ← findFile? given
  let fromFile ← match file with
    | none => pure (.ok [])
    | some path => readFile path
  match fromFile with
  | .error fault => return .error fault
  | .ok fromFile =>
    let settings :=
      options.above ((ofVariables (← Host.environment)).above (fromFile.above defaults))
    match ofSource? settings with
    | none => return .error .unfit
    | some config => return .ok { config, file }

end UiCodegen.Config
