import UiCodegen.Project.Run
import UiCodegen.Report.Json
import UiCodegen.Report.Surface

/-!
# Reports of runs

What the command line tells about a generation run.
-/

namespace UiCodegen.Report

open Project (Result)

/-- What is told about a run in its mode: pairs of a label and a text. -/
def runDetails (r : Result) : List (Bytes × Bytes) :=
  match r.mode with
  | .transpile =>
    [("Function", r.function ++ "()"), ("Widgets and styles", Bytes.ofNat r.entities)]
  | .preview =>
    [("Functions",
        Bytes.ofNat r.included ++ " included, " ++ Bytes.ofNat r.skipped.length ++ " skipped"),
     ("Signature classes", Bytes.ofNat r.groups), ("Enum entries", Bytes.ofNat r.enumEntries)]

def runTime (r : Result) : Bytes := Duration.text (Duration.roundTo Duration.millisecond r.duration)

/-- The report of a run as text.  `dir` is where its reader works. -/
def runText (t : Surface) (dir : Bytes) (r : Result) : Printed :=
  t.success ("Generated " ++ Bytes.ofNat r.files.length ++ " files (" ++ r.mode.name ++ ") in " ++
    runTime r) ++
  .all (r.files.map fun path => .resultLine ("  " ++ t.styled (Path.shownFrom dir path))) ++
  .all ((runDetails r).map fun (label, value) =>
    .resultLine ("  " ++ t.styled (label ++ ":") ++ " " ++ value)) ++
  .all (r.diagnostics.map fun d => t.warning d.text) ++
  (if r.diagnostics.isEmpty then {}
   else .resultLine (t.styled (Bytes.ofNat r.diagnostics.length ++ " warnings")))

/-- The report of a run in Markdown.  `dir` is where its reader works. -/
def runMarkdown (dir : Bytes) (r : Result) : Printed :=
  let warnings : List (List Bytes) :=
    if r.diagnostics.isEmpty then []
    else [[[], Surface.markdownHeading 2 "Warnings"],
      r.diagnostics.map fun d => "- `" ++ d.pointer ++ "`: " ++ d.message]
  let parts : List (List Bytes) :=
    [[Surface.markdownHeading 1 "Generation", [], Surface.markdownItem "Mode" r.mode.name],
     (runDetails r).map fun (label, value) => Surface.markdownItem label value,
     [Surface.markdownItem "Duration" (runTime r), [], Surface.markdownHeading 2 "Files"],
     r.files.map fun path => "- `" ++ Path.shownFrom dir path ++ "`"]
  .all ((parts ++ warnings).flatten.map .resultLine)

def runJson (r : Result) : Value :=
  .obj ([Json.textField "mode" r.mode.name, Json.listField "files" (r.files.map .str)] ++
    (if r.function.isEmpty then [] else [Json.textField "func_name" r.function]) ++
    Json.countField "entities" r.entities ++ Json.countField "included" r.included ++
    Json.countField "skipped" r.skipped.length ++ Json.countField "groups" r.groups ++
    Json.countField "enum_entries" r.enumEntries ++
    [Json.listField "warnings" (r.diagnostics.map fun d =>
        .obj [Json.textField "pointer" d.pointer, Json.textField "message" d.message]),
     Json.numberField "duration_ms" (r.duration / Duration.millisecond)])

def run (t : Surface) (dir : Bytes) (r : Result) : Printed :=
  match t.effective with
  | .json => .result (Json.document (runJson r))
  | .markdown => runMarkdown dir r
  | _ => runText t dir r

end UiCodegen.Report
