import UiCodegen.Cli.Run

/-!
# The program

The command line on real files.  This is the only module that acts on the world: it offers the
files, variables and clock of the operating system as a host, prints what a command leads to, and
waits for changes of the inputs if they are watched.
-/

namespace UiCodegen.Program

def ofBytes (s : Bytes) : String :=
  (String.fromUTF8? (ByteArray.mk s.toArray)).getD
    (String.ofList ((Utf8.codes s).map Char.ofNat))

def causeOf (e : IO.Error) : Files.Cause :=
  match e with
  | .noFileOrDirectory .. => .missing
  | .alreadyExists .. => .alreadyThere
  | .inappropriateType _ code _ => if code == 21 then .isDirectory else .notDirectory
  | .noSuchThing .. => .missing
  | e => .other (Bytes.ofString (toString e))

/-- Runs an action, and tells why it fails. -/
def attempt {α : Type} (action : IO α) : IO (Except Files.Cause α) :=
  return (← action.toBaseIO).mapError causeOf

/-- What a path leads to.  A directory can be opened for reading, but not for changing what it
holds; opening alone changes nothing. -/
def probe (path : Bytes) : IO (Except Files.Cause Files.Kind) := do
  match ← attempt (IO.FS.Handle.mk (ofBytes path) .read) with
  | .error cause => return .error cause
  | .ok _ =>
    match ← attempt (IO.FS.Handle.mk (ofBytes path) .readWrite) with
    | .error .isDirectory => return .ok .directory
    | _ => return .ok .file

def readFile (path : Bytes) : IO (Except Files.Fault Bytes) := do
  match ← probe path with
  | .error cause => return .error { operation := .openFile, path, cause }
  | .ok .directory => return .error { operation := .readFile, path, cause := .isDirectory }
  | .ok .file =>
    match ← attempt (IO.FS.readBinFile (ofBytes path)) with
    | .error cause => return .error { operation := .readFile, path, cause }
    | .ok content => return .ok content.data.toList

def writeFile (path content : Bytes) : IO (Except Files.Fault Unit) := do
  match ← attempt (IO.FS.writeBinFile (ofBytes path) (ByteArray.mk content.toArray)) with
  | .error cause => return .error { operation := .openFile, path, cause }
  | .ok () => return .ok ()

/-- The environment variables, as the system keeps them for the process. -/
def environment : IO (List (Bytes × Bytes)) := do
  match ← attempt (IO.FS.readBinFile "/proc/self/environ") with
  | .error _ => return []
  | .ok content => return (Bytes.splitOn 0 content.data.toList).filterMap (Bytes.cut? 61)

instance : Host IO where
  kind := probe
  readFile := readFile
  writeFile := writeFile
  makeDirectory path := attempt (IO.FS.createDir (ofBytes path))
  workingDirectory := return Bytes.ofString (← IO.currentDir).toString
  environment := environment
  clock := IO.monoNanosNow

def print (p : Report.Printed) : IO Unit := do
  let results ← IO.getStdout
  let messages ← IO.getStderr
  messages.write (ByteArray.mk p.messages.toArray)
  results.write (ByteArray.mk p.results.toArray)
  results.flush

def snapshot (w : Cli.Watch) : IO (List (Option Bytes)) :=
  w.plan.settings.inputPaths.mapM fun path => return (← readFile path).toOption

/-- Runs a watched plan again whenever an input has changed. -/
partial def follow (w : Cli.Watch) (seen : List (Option Bytes)) : IO Unit := do
  IO.sleep (UInt32.ofNat (w.debounce / Duration.millisecond))
  let now ← snapshot w
  if now != seen then print (← w.rerun)
  follow w now

end UiCodegen.Program

open UiCodegen in
def main (args : List String) : IO UInt32 := do
  let terminal ← (← IO.getStdout).isTty
  let outcome : Cli.Outcome ← Cli.run terminal (args.map Bytes.ofString)
  Program.print outcome.printed
  match outcome.fault, outcome.watch with
  | some fault, _ =>
    Program.print { messages := "Error: " ++ fault.message ++ "\n" }
    return 1
  | none, some w =>
    Program.follow w (← Program.snapshot w)
    return 0
  | none, none => return 0
