import UiCodegen.Files.Host

/-!
# Files in memory

A host that is a value: files and directories under absolute paths, a working directory and
variables. Its clock stands still.
-/

namespace UiCodegen.Files

/-- An absolute place: the names that lead to it from the root. -/
abbrev Place := List Bytes

/-- What is at a place. -/
inductive Item where
  | file (content : Bytes)
  | directory
  deriving DecidableEq, Repr

/-- Files in memory.  The root is always there. -/
structure Store where
  items : List (Place × Item) := []
  workingDirectory : Bytes := "/"
  environment : List (Bytes × Bytes) := []
  deriving Repr

namespace Store

variable (s : Store)

def item? (place : Place) : Option Item :=
  if place.isEmpty then some .directory else s.items.lookup place

def put (place : Place) (item : Item) : Store :=
  { s with items := (place, item) :: s.items.filter (·.1 != place) }

def maxName : Nat := 255

def maxPath : Nat := 4095

/-- Where a path leads: to something that is there, or to a name that is free in a directory that is
there. -/
inductive Target where
  | present (place : Place) (item : Item)
  | free (place : Place) (trailingSlash : Bool)
  deriving DecidableEq, Repr

/-- Follows the pieces of a path between slashes from a place that is there.  Empty pieces and `.`
stay where they are, but only in a directory. -/
def follow (s : Store) (place : Place) (item : Item) : List Bytes → Except Cause Target
  | [] => .ok (.present place item)
  | piece :: rest =>
    if item != .directory then .error .notDirectory
    else if piece.isEmpty || piece == Path.here then s.follow place item rest
    else if piece == Path.above then s.follow place.dropLast .directory rest
    else if maxName < piece.length then .error .tooLong
    else match s.item? (place ++ [piece]) with
      | some next => s.follow (place ++ [piece]) next rest
      | none =>
        if rest.all (·.isEmpty) then .ok (.free (place ++ [piece]) (!rest.isEmpty))
          else .error .missing

def target (path : Bytes) : Except Cause Target :=
  if path.isEmpty then .error .missing
  else if path.contains 0 then .error .invalid
  else if maxPath < path.length then .error .tooLong
  else
    let start := if Path.isAbsolute path then [] else Path.names s.workingDirectory
    s.follow start .directory (Bytes.splitOn 47 path)

def kind (path : Bytes) : Except Cause Kind :=
  match s.target path with
  | .error cause => .error cause
  | .ok (.free ..) => .error .missing
  | .ok (.present _ (.file _)) => .ok .file
  | .ok (.present _ .directory) => .ok .directory

def read (path : Bytes) : Except Fault Bytes :=
  match s.target path with
  | .error cause => .error { operation := .openFile, path, cause }
  | .ok (.free ..) => .error { operation := .openFile, path, cause := .missing }
  | .ok (.present _ .directory) => .error { operation := .readFile, path, cause := .isDirectory }
  | .ok (.present _ (.file content)) => .ok content

def write (path content : Bytes) : Except Fault Store :=
  match s.target path with
  | .error cause => .error { operation := .openFile, path, cause }
  | .ok (.present _ .directory) => .error { operation := .openFile, path, cause := .isDirectory }
  | .ok (.free _ true) => .error { operation := .openFile, path, cause := .isDirectory }
  | .ok (.free place false) => .ok (s.put place (.file content))
  | .ok (.present place (.file _)) => .ok (s.put place (.file content))

def makeDirectory (path : Bytes) : Except Cause Store :=
  match s.target path with
  | .ok (.free place _) => .ok (s.put place .directory)
  | .ok (.present ..) => .error .alreadyThere
  | .error .notDirectory =>
    -- A slash behind the name of a file does not hide the file.
    match s.target (Bytes.dropEndWhile (· == 47) path) with
    | .ok _ => .error .alreadyThere
    | .error cause => .error cause
  | .error cause => .error cause

def change {ε : Type} (f : Store → Except ε Store) : StateM Store (Except ε Unit) := fun s =>
  match f s with
  | .ok s' => (.ok (), s')
  | .error e => (.error e, s)

instance : Host (StateM Store) where
  kind path := return (← get).kind path
  readFile path := return (← get).read path
  writeFile path content := change (·.write path content)
  makeDirectory path := change (·.makeDirectory path)
  workingDirectory := return (← get).workingDirectory
  environment := return (← get).environment
  clock := return 0

def withDirectories (place : Place) : Store :=
  ((List.range (place.length + 1)).map place.take).foldl
    (fun s dir => if (s.item? dir).isSome then s else s.put dir .directory) s

/-- A store with a file, in directories that are created as needed. -/
def withFile (place : Place) (content : Bytes) : Store :=
  (s.withDirectories place.dropLast).put place (.file content)

def files : List (Place × Bytes) :=
  s.items.filterMap fun (place, item) =>
    match item with
    | .file content => some (place, content)
    | .directory => none

end Store

end UiCodegen.Files
