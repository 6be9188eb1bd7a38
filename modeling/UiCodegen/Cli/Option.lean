import UiCodegen.Config.Setting
import UiCodegen.Text.Csv
import UiCodegen.Text.Duration

/-!
# Options of the command line

An option has a name, used as `--name`, and possibly a letter, used as `-n`.  Its value stands
behind an equals sign or in the next argument; a switch needs no value.  Letters can be written
together, and what follows the letter of an option with a value is its value.  Arguments that are no
options stand anywhere among them, and after `--` there are no more options.
-/

namespace UiCodegen.Cli

/-- What the value of an option is. -/
inductive Kind where
  | text
  /-- Texts with commas between them; each use of the option adds to the list. -/
  | list
  | integer
  | switch
  | duration
  deriving DecidableEq, Repr

/-- An option. -/
structure Opt where
  name : Bytes
  letter : Option UInt8 := none
  kind : Kind := .text
  usage : Bytes := []
  deriving DecidableEq, Repr

/-- Whether an option can stand without a value. -/
def Opt.isSwitch (o : Opt) : Bool := o.kind == .switch

def named? (options : List Opt) (name : Bytes) : Option Opt := options.find? (·.name == name)

def lettered? (options : List Opt) (letter : UInt8) : Option Opt :=
  options.find? (·.letter == some letter)

/-! ## Values -/

/-- Why a text is no value of an option. -/
inductive ValueFault where
  | integer (fault : Integer.Fault)
  | switch
  | duration (fault : Duration.Fault)
  | list (fault : Csv.Fault)
  deriving DecidableEq, Repr

/-- The wording for a text that cannot be read as a number or truth value. -/
def unparsed (reader s problem : Bytes) : Bytes :=
  "strconv." ++ reader ++ ": parsing " ++ Quoted.quote s ++ ": " ++ problem

/-- The wording of a fault of the text `s`. -/
def ValueFault.message (s : Bytes) : ValueFault → Bytes
  | integer .malformed => unparsed "ParseInt" s "invalid syntax"
  | integer .outOfRange => unparsed "ParseInt" s "value out of range"
  | switch => unparsed "ParseBool" s "invalid syntax"
  | duration fault => fault.message s
  | list fault => fault.message

/-- The value of an option; `before` is the one it already has. -/
def Opt.read (o : Opt) (before : Option Config.Setting) (s : Bytes) :
    Except ValueFault Config.Setting :=
  match o.kind with
  | .text => .ok (.text s)
  | .integer => (Integer.parse .announced s).map .int |>.mapError .integer
  | .duration => (Duration.parse s).map .int |>.mapError .duration
  | .switch =>
    match Document.Yaml.boolOf? s with
    | some b => .ok (.bool b)
    | none => .error .switch
  | .list =>
    let items := if s.isEmpty then .ok [] else Csv.record s
    match items, before with
    | .error fault, _ => .error (.list fault)
    | .ok items, some (.list done) => .ok (.list (done ++ items.map .text))
    | .ok items, _ => .ok (.list (items.map .text))

/-! ## Arguments -/

/-- Why options cannot be read. -/
inductive OptFault where
  | unknown (name : Bytes)
  | unknownLetter (letter : UInt8) (group : Bytes)
  | malformed (argument : Bytes)
  | missingValue (name : Bytes)
  | missingLetterValue (letter : UInt8) (group : Bytes)
  | badValue (option : Opt) (value : Bytes) (fault : ValueFault)
  | help
  deriving DecidableEq, Repr

/-- A letter in quotes.  An octet that is no letter of its own is shown as the first octet of its
two in UTF-8. -/
def quotedLetter (b : UInt8) : Bytes :=
  Quoted.quoteOctet (if b < 0x80 then b else if b < 0xC0 then 0xC2 else 0xC3)

def Opt.title (o : Opt) : Bytes :=
  match o.letter with
  | some letter => "-" ++ (letter :: Bytes.ofString ", --") ++ o.name
  | none => "--" ++ o.name

def OptFault.message : OptFault → Bytes
  | unknown name => "unknown flag: --" ++ name
  | unknownLetter letter group =>
    "unknown shorthand flag: " ++ quotedLetter letter ++ " in -" ++ group
  | malformed argument => "bad flag syntax: " ++ argument
  | missingValue name => "flag needs an argument: --" ++ name
  | missingLetterValue letter group =>
    "flag needs an argument: " ++ quotedLetter letter ++ " in -" ++ group
  | badValue option value fault =>
    "invalid argument " ++ Quoted.quote value ++ " for " ++
      Quoted.quote option.title ++ " flag: " ++ fault.message value
  | help => "pflag: help requested"

/-- What was read of the arguments. -/
structure Parsed where
  /-- The values of the options that were given, under their names. -/
  values : Config.Source := []
  rest : List Bytes := []
  deriving Repr

namespace Parsed

def give (p : Parsed) (o : Opt) (value : Bytes) : Except OptFault Parsed :=
  match o.read (p.values.lookup o.name) value with
  | .error fault => .error (.badValue o value fault)
  | .ok v => .ok { p with values := (o.name, v) :: p.values.filter (·.1 != o.name) }

def has (p : Parsed) (name : Bytes) : Bool := p.values.any (·.1 == name)

def isOn (p : Parsed) (name : Bytes) : Bool :=
  match p.values.lookup name with
  | some (.bool b) => b
  | _ => false

def number (p : Parsed) (name : Bytes) : Int :=
  match p.values.lookup name with
  | some (.int n) => n
  | _ => 0

def text (p : Parsed) (name : Bytes) : Bytes :=
  match p.values.lookup name with
  | some (.text s) => s
  | _ => []

end Parsed

/-- Reads an option by name, behind `--`.  Yields whether the next argument was taken. -/
def readNamed (options : List Opt) (p : Parsed) (body : Bytes) (next : Option Bytes) :
    Except OptFault (Parsed × Bool) :=
  if body.isEmpty || Bytes.startsWith body "-" || Bytes.startsWith body "=" then
    .error (.malformed ("--" ++ body))
  else
    let (name, value) := match Bytes.cut? 61 body with
      | some (name, value) => (name, some value)
      | none => (body, none)
    match named? options name with
    | none => .error (if name == "help" then .help else .unknown name)
    | some o =>
      match value with
      | some value => (p.give o value).map (·, false)
      | none =>
        if o.isSwitch then (p.give o "true").map (·, false)
        else match next with
          | some value => (p.give o value).map (·, true)
          | none => .error (.missingValue name)

/-- Reads options by letter, behind `-`.  Yields whether the next argument was taken. -/
def readLetters (options : List Opt) (p : Parsed) (next : Option Bytes) :
    Bytes → Except OptFault (Parsed × Bool)
  | [] => .ok (p, false)
  | letter :: rest =>
    -- Arguments for a test runner are none of ours.
    if Bytes.startsWith (letter :: rest) "test." then .ok (p, false)
    else match lettered? options letter with
      | none => .error (if letter == 104 then .help else .unknownLetter letter (letter :: rest))
      | some o =>
        if Bytes.startsWith rest "=" && 1 < rest.length then (p.give o (rest.drop 1)).map (·, false)
        else if o.isSwitch then do
          let p ← p.give o "true"
          readLetters options p next rest
        else if !rest.isEmpty then (p.give o rest).map (·, false)
        else match next with
          | some value => (p.give o value).map (·, true)
          | none => .error (.missingLetterValue letter (letter :: rest))

/-- Reads arguments on top of what was read.  `skip` tells that the first one was taken as a value.
-/
def parseFrom (options : List Opt) (p : Parsed) (skip : Bool) : List Bytes → Except OptFault Parsed
  | [] => .ok p
  | arg :: rest =>
    if skip then parseFrom options p false rest
    else if !Bytes.startsWith arg "-" || arg.length == 1 then
      parseFrom options { p with rest := p.rest ++ [arg] } false rest
    else if arg == "--" then .ok { p with rest := p.rest ++ rest }
    else do
      let (p, taken) ← if Bytes.startsWith arg "--" then readNamed options p (arg.drop 2) rest.head?
        else readLetters options p rest.head? (arg.drop 1)
      parseFrom options p taken rest

def parse (options : List Opt) (args : List Bytes) : Except OptFault Parsed :=
  parseFrom options {} false args

end UiCodegen.Cli
