import UiCodegen.Files.Path

/-!
# What the program needs of its host

Reading and writing files, the working directory, environment variables and a clock.  Everything
above is written against this interface, so that it runs on real files and, with
`UiCodegen.Files.Store`, as a pure function.
-/

namespace UiCodegen.Files

/-- Why a path cannot be used. -/
inductive Cause where
  | missing
  | notDirectory
  | isDirectory
  | alreadyThere
  | tooLong
  | invalid
  | other (text : Bytes)
  deriving DecidableEq, Repr

def Cause.message : Cause → Bytes
  | missing => "no such file or directory"
  | notDirectory => "not a directory"
  | isDirectory => "is a directory"
  | alreadyThere => "file exists"
  | tooLong => "file name too long"
  | invalid => "invalid argument"
  | other text => text

/-- What was attempted. -/
inductive Operation where
  | openFile | readFile | makeDirectory
  deriving DecidableEq, Repr

def Operation.word : Operation → Bytes
  | openFile => "open"
  | readFile => "read"
  | makeDirectory => "mkdir"

/-- An operation that failed. -/
structure Fault where
  operation : Operation
  path : Bytes
  cause : Cause
  deriving DecidableEq, Repr

def Fault.message (f : Fault) :
    Bytes := f.operation.word ++ " " ++ f.path ++ ": " ++ f.cause.message

/-- What a path leads to. -/
inductive Kind where
  | file | directory
  deriving DecidableEq, Repr

end Files

/-- A host that computations in `m` run on. -/
class Host (m : Type → Type) where
  /-- What a path leads to. -/
  kind : Bytes → m (Except Files.Cause Files.Kind)
  readFile : Bytes → m (Except Files.Fault Bytes)
  /-- Creates a file or replaces its content. -/
  writeFile : Bytes → Bytes → m (Except Files.Fault Unit)
  /-- Creates a directory in an existing one. -/
  makeDirectory : Bytes → m (Except Files.Cause Unit)
  /-- The absolute path that relative ones start from. -/
  workingDirectory : m Bytes
  environment : m (List (Bytes × Bytes))
  /-- Nanoseconds since some fixed moment. -/
  clock : m Nat

namespace Files

variable {m : Type → Type} [Monad m] [Host m]

def isThere (path : Bytes) : m Bool := return (← Host.kind path).isOk

def isDirectory (path : Bytes) : m Bool :=
  return match ← Host.kind path with
    | .ok .directory => true
    | _ => false

/-- Adds a text to a file, which is created as needed.  Nothing happens if that cannot be done. -/
def append (path text : Bytes) : m Unit := do
  let before := (← Host.readFile path).toOption.getD []
  let _ ← Host.writeFile path (before ++ text)

/-- Creates a directory where nothing is.  One that is there after all is as good as a new one. -/
def ensureLast (path : Bytes) : m (Except Fault Unit) := do
  match ← Host.makeDirectory path with
  | .ok () => return .ok ()
  | .error cause =>
    if ← isDirectory path then return .ok ()
    else return .error { operation := .makeDirectory, path, cause }

/-- The part of a path that leads to its last name, with the slash behind it. -/
def parentPart (path : Bytes) : Bytes :=
  Bytes.dropEndWhile (· != 47) (Bytes.dropEndWhile (· == 47) path)

/-- The paths of a directory and of those it stands in, outermost first.  There are no more of them
than octets in the path. -/
def withParents : (length : Nat) → Bytes → List Bytes
  | 0, _ => []
  | length + 1, path => if path.isEmpty then [] else withParents length (parentPart path) ++ [path]

/-- Creates a directory and those it stands in, as far as they are not there.  `paths` lists them
innermost first: below the first that is there, all are created. -/
def ensureAll : (paths : List Bytes) → m (Except Fault Unit)
  | [] => return .ok ()
  | path :: outer => do
    match ← Host.kind path with
    | .ok .directory => return .ok ()
    | .ok .file => return .error { operation := .makeDirectory, path, cause := .notDirectory }
    | .error _ =>
      match ← ensureAll outer with
      | .error fault => return .error fault
      | .ok () => ensureLast path

/-- Creates a directory and those it stands in, as far as they are not there. -/
def ensureDirectory (path : Bytes) : m (Except Fault Unit) :=
  ensureAll (withParents path.length path).reverse

end Files

end UiCodegen
