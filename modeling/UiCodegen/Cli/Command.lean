import UiCodegen.Cli.Option
import UiCodegen.Text.Fold

/-!
# Commands

The program has commands, each with options of its own; some options hold for all commands.  The
command is the first argument that is neither an option nor the value of one.
-/

namespace UiCodegen.Cli

def program : Bytes := "lvglgen"

def version : Bytes := "0.1.0"

/-- The commands. -/
inductive Command where
  | root
  | version
  | generate
  | inspect
  | completion
  | help
  /-- Lists what can stand in a place of the command line, for a shell. -/
  | complete
  deriving DecidableEq, Repr

namespace Command

def name : Command → Bytes
  | root => program
  | version => "version"
  | generate => "generate"
  | inspect => "inspect"
  | completion => "completion"
  | help => "help"
  | complete => "__complete"

/-- The name under which completions are asked for without descriptions. -/
def bareComplete : Bytes := "__completeNoDesc"

def summary : Command → Bytes
  | root => "lvglgen - LVGL UI code generator"
  | version => "Show version information"
  | generate => "Generate C sources from the LVGL API description"
  | inspect => "Show what the runtime interpreter would include"
  | completion => "Generate shell completion scripts"
  | help => "Help about any command"
  | complete => "Request shell completion choices for the specified command-line"

def suggestable : List Command := [version, generate, inspect, completion]

def listed : List Command := [completion, generate, help, inspect, version]

def ofName? (name : Bytes) : Option Command :=
  if name == bareComplete then some complete
  else [version, generate, inspect, completion, help, complete].find? (·.name == name)

def commonOptions : List Opt :=
  [{ name := "config", usage := "config file (default: ./lvglgen.yaml)" },
   { name := "debug", kind := .switch, usage := "Debug logging" },
   { name := "enum-values", usage := "Supplementary enum values file" },
   { name := "exclude", kind := .list, usage := "Function name patterns to exclude" },
   { name := "include", kind := .list,
     usage := "Function name patterns to include (default ^lv_)" },
   { name := "macros", kind := .list, usage := "Object-like macros exported to the enum table" },
   { name := "max-user-enums", kind := .integer,
     usage := "Capacity of the runtime user enum table" },
   { name := "mode", letter := some 109, usage := "Generation mode (preview|c_transpile)" },
   { name := "name", usage := "UI name used for create_ui_<name> (default: UI file name)" },
   { name := "output", letter := some 111, usage := "Output format (auto|text|markdown|json)" },
   { name := "parent-param", usage := "Parameter name of the generated create function" },
   { name := "ui", usage := "UI document (.json, .yaml or .yml)" }]

def helpOption (c : Command) : Opt :=
  { name := "help", letter := some 104, kind := .switch, usage := "help for " ++ c.name }

def ownOptions (c : Command) : List Opt :=
  match c with
  | root =>
    [c.helpOption,
     { name := "version", letter := some 118, kind := .switch, usage := "version for " ++ program }]
  | generate =>
    [{ name := "debounce", kind := .duration,
       usage := "Quiet period before regenerating in watch mode" },
     c.helpOption,
     { name := "watch", letter := some 119, kind := .switch
       usage := "Regenerate when an input file changes" }]
  | inspect =>
    [{ name := "enums", kind := .switch, usage := "List the enum and macro table" },
     { name := "functions", kind := .switch,
       usage := "List the functions of each signature class" },
     c.helpOption]
  | _ => [c.helpOption]

def options (c : Command) : List Opt := commonOptions ++ c.ownOptions

def shells : List Bytes := ["bash", "zsh", "fish", "powershell"]

/-! ## Finding the command -/

/-- Whether an argument is an option whose value is the next argument.  An option that is not known
yet counts as one. -/
def takesNext (arg : Bytes) : Bool :=
  if arg.contains 61 then false
  else if Bytes.startsWith arg "--" then
    !((named? commonOptions (arg.drop 2)).any (·.isSwitch))
  else match arg with
    | [45, letter] => !((lettered? commonOptions letter).any (·.isSwitch))
    | _ => false

/-- The arguments that are neither options nor their values, up to `--`.  An option with a value
ends the list if at most one argument follows it. -/
def positional : List Bytes → List Bytes
  | [] => []
  | arg :: rest =>
    if arg == "--" then []
    else if takesNext arg then
      match rest with
      | _ :: next :: rest => positional (next :: rest)
      | _ => []
    else if arg.isEmpty || Bytes.startsWith arg "-" then positional rest
    else arg :: positional rest

/-- Arguments without the first that is `name` and neither an option nor its value. -/
def without (name : Bytes) : List Bytes → List Bytes
  | [] => []
  | arg :: rest =>
    if arg == "--" then arg :: rest
    else if takesNext arg then
      match rest with
      | value :: rest => arg :: value :: without name rest
      | [] => [arg]
    else if arg == name && !Bytes.startsWith arg "-" then rest
    else arg :: without name rest

/-- The number of octets to insert, delete or replace to get from one text to the other.  `row`
holds the numbers for the part of `a` that was passed and each head of `b`. -/
def distanceFrom (b : Bytes) : (row : List Nat) → Bytes → Nat
  | row, [] => row.getLast?.getD 0
  | row, x :: rest =>
    let start := row.head?.getD 0 + 1
    let next := (b.zip (row.zip (row.drop 1))).foldl
      (fun (done : List Nat × Nat) (y, diagonal, above) =>
        let n := if x == y then diagonal else min (min diagonal above) done.2 + 1
        (done.1 ++ [n], n)) ([start], start)
    distanceFrom b next.1 rest

/-- The number of octets to insert, delete or replace to get from one text to the other. -/
def distance (a b : Bytes) : Nat := distanceFrom b (List.range (b.length + 1)) a

def suggestions (typed : Bytes) : List Command :=
  let typed := Fold.smallText typed
  suggestable.filter fun c => distance typed c.name ≤ 2 || Bytes.startsWith c.name typed

/-- The command of arguments, and the arguments without its name; or the name that is no command. -/
def find (args : List Bytes) : Except Bytes (Command × List Bytes) :=
  match positional args with
  | [] => .ok (root, args)
  | name :: _ =>
    match ofName? name with
    | some c => .ok (c, without name args)
    | none => .error name

end Command

end UiCodegen.Cli
