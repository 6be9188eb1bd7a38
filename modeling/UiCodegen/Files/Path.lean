import UiCodegen.Bytes

/-!
# Paths

Paths as text: names separated by slashes, absolute if a slash stands in front.  All operations here
are lexical; what a path leads to is the matter of `UiCodegen.Files.Host`.
-/

namespace UiCodegen.Path

def here : Bytes := "."

def above : Bytes := ".."

def isAbsolute (path : Bytes) : Bool := Bytes.startsWith path "/"

def names (path : Bytes) : List Bytes := (Bytes.splitOn 47 path).filter (!·.isEmpty)

/-- Adds a name to names that are in normal form and stand last first: `.` adds nothing, and `..`
takes back the last name.  What would lead above the root is dropped, above a relative start it is
kept. -/
def push (absolute : Bool) (done : List Bytes) (name : Bytes) : List Bytes :=
  if name == here then done
  else if name == above then
    match done with
    | [] => if absolute then [] else [name]
    | last :: rest => if last == above then name :: done else rest
  else name :: done

def normalNames (path : Bytes) : List Bytes :=
  ((names path).foldl (push (isAbsolute path)) []).reverse

def ofNames (absolute : Bool) (names : List Bytes) : Bytes :=
  if absolute then 47 :: Bytes.join "/" names
  else if names.isEmpty then here
  else Bytes.join "/" names

def clean (path : Bytes) : Bytes := ofNames (isAbsolute path) (normalNames path)

/-- A path inside a directory, in shortest form.  An empty directory adds nothing. -/
def inside (dir path : Bytes) : Bytes :=
  if dir.isEmpty then if path.isEmpty then [] else clean path
  else clean (dir ++ "/" ++ path)

def base (path : Bytes) : Bytes :=
  if path.isEmpty then here
  else match (names path).getLast? with
    | some name => name
    | none => "/"

/-- The extension of a path: what stands after its last slash, from the last point on. -/
def extension (path : Bytes) : Bytes :=
  let last := (Bytes.splitOn 47 path).getLast?.getD []
  match Bytes.cutLast? 46 last with
  | some (_, tail) => 46 :: tail
  | none => []

/-- The last name of a path without its extension. -/
def stem (path : Bytes) : Bytes := Bytes.trimTail (base path) (extension (base path))

def directory (path : Bytes) : Bytes :=
  match Bytes.cutLast? 47 path with
  | some (dir, _) => clean (dir ++ "/")
  | none => here

/-- The absolute path for one that is given relative to `dir`. -/
def absoluteFrom (dir path : Bytes) :
    Bytes := if isAbsolute path then clean path else inside dir path

/-- A path as it is shown to someone who works in `dir`: relative if it is an absolute path to
something in `dir`, and unchanged otherwise. -/
def shownFrom (dir path : Bytes) : Bytes :=
  if isAbsolute path && (normalNames dir).isPrefixOf (normalNames path) then
    let rest := ofNames false ((normalNames path).drop (normalNames dir).length)
    if Bytes.startsWith rest above then path else rest
  else path

end UiCodegen.Path
