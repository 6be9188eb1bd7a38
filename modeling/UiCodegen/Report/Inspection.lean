import UiCodegen.Project.Run
import UiCodegen.Report.Json
import UiCodegen.Report.Surface

/-!
# Reports of inspections

What the command line tells about the content of an interpreter.
-/

namespace UiCodegen.Report

variable (t : Surface)

open Project (Inspection)

/-- Which optional parts a report of an inspection has. -/
structure InspectionParts where
  enums : Bool := false
  functions : Bool := false
  deriving DecidableEq, Repr

def inspectionCounts (i : Inspection) : Printed :=
  let included := Bytes.ofNat i.included.length
  let skipped := Bytes.ofNat i.skipped.length
  let filtered := Bytes.ofNat i.filtered
  if t.effective == .markdown then
    .resultLine (Surface.markdownItem "Included" included) ++
    .resultLine (Surface.markdownItem "Skipped" skipped) ++
    .resultLine (Surface.markdownItem "Filtered by name" filtered)
  else
    .resultLine (t.styled "included:" ++ " " ++ included ++ "  " ++ t.styled "skipped:" ++ " " ++
      skipped ++ "  " ++ t.styled "filtered:" ++ " " ++ filtered)

def signatureTable (parts : InspectionParts) (i : Inspection) : Printed :=
  let header : List Bytes :=
    if parts.functions then ["shim", "signature", "functions", "members"]
    else ["shim", "signature", "functions"]
  let rows := i.groups.zipIdx.map fun (g, n) =>
    [Bytes.ofNat n, g.signature.text, Bytes.ofNat g.functions.length] ++
    (if parts.functions then [Bytes.join ", " (g.functions.map (·.name))] else [])
  t.table header rows

/-- The table of functions that cannot be called. -/
def skippedTable (i : Inspection) : Printed :=
  if i.skipped.isEmpty then .resultLine "none"
  else t.table ["function", "reason"] (i.skipped.map fun (f, reason) => [f.name, reason])

def enumsTable (i : Inspection) : Printed :=
  t.table ["hash", "name", "value", "source"]
    (i.enums.map fun e => [Bytes.ofNat e.hash.toNat, e.name, e.cValue, e.origin.name])

def inspectionTables (parts : InspectionParts) (i : Inspection) : Printed :=
  t.heading 1 "API Inspection" ++ inspectionCounts t i ++ .resultLine [] ++
  t.heading 2 "Signature classes" ++ signatureTable t parts i ++ .resultLine [] ++
  t.heading 2 "Skipped functions" ++ skippedTable t i ++
  (if parts.enums then .resultLine [] ++ t.heading 2 "Enum table" ++ enumsTable t i else {})

def signatureJson (signature : Bytes) (functions : Value) : Value :=
  .obj [Json.textField "signature" signature, ("functions", functions)]

def skippedJson (function reason : Bytes) : Value :=
  .obj [Json.textField "function" function, Json.textField "reason" reason]

/-- The report of an inspection in JSON, from its parts.  Constants are left out if there are none.
-/
def inspectionValue (included filtered : Int) (signatures skipped enums : List Value) : Value :=
  .obj ([Json.numberField "included" included, Json.numberField "filtered" filtered,
    Json.listField "signatures" signatures, Json.listField "skipped" skipped] ++
    if enums.isEmpty then [] else [Json.listField "enums" enums])

def inspectionJson (parts : InspectionParts) (i : Inspection) : Value :=
  inspectionValue i.included.length i.filtered
    (i.groups.map fun g => signatureJson g.signature.text (.arr (g.functions.map (.str ·.name))))
    (i.skipped.map fun (f, reason) => skippedJson f.name reason)
    (if parts.enums then i.enums.map fun e =>
      .obj [Json.numberField "hash" e.hash.toNat, Json.textField "name" e.name,
        Json.textField "value" e.cValue, Json.textField "source" e.origin.name]
     else [])

def inspection (parts : InspectionParts) (i : Inspection) : Printed :=
  match t.effective with
  | .json => .result (Json.document (inspectionJson parts i))
  | _ => inspectionTables t parts i

end UiCodegen.Report
