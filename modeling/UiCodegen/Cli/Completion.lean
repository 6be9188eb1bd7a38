import UiCodegen.Cli.Command
import UiCodegen.Project.Settings
import UiCodegen.Report.Surface

/-!
# Completing a command line

What can stand in the last place of a command line: names of commands or options, or values of
options. Each choice has a description, except for values.
-/

namespace UiCodegen.Cli

/-- What a shell does besides offering the choices. -/
inductive Directive where
  | files
  /-- It offers nothing else. -/
  | noFiles
  deriving DecidableEq, Repr

def Directive.number : Directive → Nat
  | files => 0
  | noFiles => 4

def Directive.name : Directive → Bytes
  | files => "ShellCompDirectiveDefault"
  | noFiles => "ShellCompDirectiveNoFileComp"

/-- A choice, with a description that may be empty. -/
structure Choice where
  text : Bytes
  description : Bytes := []
  deriving DecidableEq, Repr

/-- Why there are no choices. -/
inductive Complaint where
  | noCommand (args : List Bytes)
  | badOptions (args : List Bytes) (fault : OptFault)
  | unknownOption (command : Command) (name : Bytes)
  deriving DecidableEq, Repr

def bracketedArgs (args : List Bytes) : Bytes := "[" ++ Bytes.join " " args ++ "]"

def Complaint.message : Complaint → Bytes
  | noCommand args => "unable to find a command for arguments: " ++ bracketedArgs args
  | badOptions args fault =>
    "Error while parsing flags from args " ++ bracketedArgs args ++ ": " ++ fault.message
  | unknownOption command name =>
    "Subcommand '" ++ command.name ++ "' does not support flag '" ++ name ++ "'"

def Complaint.line (c : Complaint) : Bytes := "[Debug] [Error] " ++ c.message ++ "\n"

/-- The answer to a request for completions. -/
structure Completions where
  choices : List Choice := []
  directive : Directive := .files
  complaint : Option Complaint := none
  deriving DecidableEq, Repr

namespace Completions

def commands (typed : Bytes) : List Choice :=
  (Command.listed.filter fun c => Bytes.startsWith c.name typed).map fun c => ⟨c.name, c.summary⟩

def names (typed : Bytes) (o : Opt) : List Choice :=
  let long : Bytes := "--" ++ o.name
  let short : Bytes := (o.letter.map fun letter => [45, letter]).getD []
  ([long, short].filter fun s => !s.isEmpty && Bytes.startsWith s typed).map fun s => ⟨s, o.usage⟩

/-- The options of a command that begin with a text.  One that was given is left out, unless it can
be given again. -/
def options (own common : List Opt) (p : Parsed) (typed : Bytes) : List Choice :=
  ((common ++ own).filter fun o => !p.has o.name || o.kind == .list).flatMap (names typed)

def values (o : Opt) : Completions :=
  if o.name == "mode" then
    { choices := [Project.Mode.preview, .transpile].map fun mode => ⟨mode.name, []⟩
      directive := .noFiles }
  else if o.name == "output" then
    { choices := Report.Format.known.map fun f => ⟨f.name, []⟩, directive := .noFiles }
  else {}

/-- Where a command line ends. -/
structure Place where
  /-- The option whose value is typed. -/
  option : Option Opt := none
  args : List Bytes
  typed : Bytes
  /-- The name of the option, if it is not known. -/
  unknown : Option Bytes := none

def isOption (arg : Bytes) : Bool :=
  match arg with
  | 45 :: 45 :: _ :: _ => true
  | 45 :: second :: _ => second != 45
  | _ => false

def optionCalled? (opts : List Opt) (name : Bytes) : Option Opt :=
  match name with
  | [letter] => lettered? opts letter
  | _ => named? opts name

/-- The name of the option in an argument without a value: behind `--`, or the last letter. -/
def optionName (arg : Bytes) : Bytes :=
  match Bytes.dropHead? arg "--" with
  | some name => name
  | none => arg.drop (arg.length - 1)

/-- Where a command line ends: in the value of an option behind an equals sign or in an argument of
its own, or elsewhere.  With an equals sign and no name in front of it the option is that of the
last argument, and then even a switch may have a value. -/
def place (opts : List Opt) (args : List Bytes) (typed : Bytes) : Place :=
  let elsewhere : Place := { args, typed }
  let called (name : Bytes) (found : Opt → Place) : Place :=
    if name.isEmpty then elsewhere
    else match optionCalled? opts name with
      | some o => found o
      | none => { elsewhere with unknown := some name }
  let afterOption (typed : Bytes) (withEquals : Bool) : Place :=
    match args.getLast? with
    | none => { elsewhere with typed }
    | some last =>
      if isOption last && !last.contains 61 then
        called (optionName last) fun o =>
          if o.isSwitch && !withEquals then { elsewhere with typed }
          else { option := some o, args := args.dropLast, typed }
      else { elsewhere with typed }
  if Bytes.startsWith typed "-" then
    match Bytes.cut? 61 typed with
    | none => elsewhere
    | some (head, value) =>
      if (optionName head).isEmpty then afterOption value true
      else called (optionName head) fun o => { elsewhere with option := some o, typed := value }
  else afterOption typed false

/-- What can stand behind a command where no option is expected. -/
def arguments (c : Command) (p : Parsed) (typed : Bytes) : Completions :=
  match c with
  | .root =>
    if p.rest.isEmpty && !(c.ownOptions.any fun o => p.has o.name) then
      { choices := commands typed, directive := .noFiles }
    else {}
  | .completion =>
    if p.rest.isEmpty then
      { choices := (Command.shells.filter (Bytes.startsWith · typed)).map fun s => ⟨s, []⟩
        directive := .noFiles }
    else {}
  | .help =>
    match Command.find p.rest with
    | .ok (.root, _) => { choices := commands typed, directive := .noFiles }
    | _ => { directive := .noFiles }
  | _ => {}

def atPlace (c : Command) (at_ : Place) : Completions :=
  let opts := c.options
  match parse opts at_.args, parse opts (at_.args ++ [Bytes.ofString "--"]) with
  | .ok p, .ok q =>
    -- A second `--` is an argument, and then there are no options any more.
    let optionsEnded := p.rest.length < q.rest.length
    match at_.unknown.filter (fun _ => !optionsEnded), at_.option with
    | some name, _ => { complaint := some (.unknownOption c name) }
    | none, option =>
      if p.has "help" || p.has "version" then { directive := .noFiles }
      else match option with
      | some o =>
        if !optionsEnded then values o
        else if c == .help then arguments c p at_.typed
        else {}
      | none =>
        if Bytes.startsWith at_.typed "-" && !at_.typed.contains 61 && !optionsEnded then
          let (own, common) := if c == .root then ((Command.commonOptions ++ c.ownOptions).mergeSort
            (fun a b => Bytes.le a.name b.name), []) else (c.ownOptions, Command.commonOptions)
          { choices := options own common p at_.typed, directive := .noFiles }
        else arguments c p at_.typed
  | .error fault, _ | _, .error fault => { complaint := some (.badOptions at_.args fault) }

def ofArgs (args : List Bytes) : Completions :=
  let typed := args.getLast?.getD []
  match Command.find args.dropLast with
  | .error _ => { complaint := some (.noCommand args.dropLast) }
  | .ok (.complete, _) =>
    if Bytes.startsWith typed "-" && !typed.contains 61 then
      { choices := options [] Command.commonOptions {} typed, directive := .noFiles }
    else {}
  | .ok (c, rest) => atPlace c (place c.options rest typed)

def choiceLine (descriptions : Bool) (choice : Choice) : Bytes :=
  choice.text ++ Bytes.onlyIf (descriptions && !choice.description.isEmpty)
    (9 :: choice.description) ++ "\n"

/-- The text of completions: a choice in each line, and the number of the directive in the last. -/
def text (c : Completions) (descriptions : Bool) : Bytes :=
  c.choices.flatMap (choiceLine descriptions) ++ (58 :: Bytes.ofNat c.directive.number ++ [10])

end Completions

end UiCodegen.Cli
