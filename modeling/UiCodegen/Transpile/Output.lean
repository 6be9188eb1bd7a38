import UiCodegen.Transpile.Instance

/-!
# Transpiling a document

A document is one node or an array of nodes.  Its code is a function that builds the widgets under
its parameter, in a source file with the static objects that the function uses, and a header.
-/

namespace UiCodegen.Transpile

variable (cfg : Settings)

/-- The name of a UI if none is given. -/
def defaultName : Bytes := "main"

/-- The name of the parameter if none is given. -/
def defaultParent : Bytes := "parent"

/-- The settings of a run; texts that are empty take their defaults. -/
def Settings.make (index : Api.Index) (enums : EnumTable) (filter : Api.Filter)
    (name parentParam source : Bytes) : Settings where
  index
  enums
  filter
  name := C.identifier (if name.isEmpty then defaultName else name)
  parentParam := if parentParam.isEmpty then defaultParent else parentParam
  source

/-- The frame of the document: new widgets are created in the parameter. -/
def rootFrame : Frame where
  parent :=
    { cname := cfg.parentParam, ctype := "lv_obj_t *", isPointer := true, nodeType := "parent",
      setterPrefix := "lv_obj" }

/-- Processes a document, given how components are instantiated. -/
def runWith (instantiate : Fields → Frame → Run Unit) (doc : Value) : Run Unit :=
  let frame := rootFrame cfg
  match doc with
  | .obj node => guarded (processFields cfg instantiate node frame)
  | .arr nodes => processChildren cfg instantiate nodes 0 frame
  | v => violate (.documentType v.typeName) frame.at_

def run (doc : Value) : Run Unit := runWith cfg (instantiate cfg) doc

/-- The generated files. -/
structure Output where
  function : Bytes
  sourceFile : Bytes
  headerFile : Bytes
  source : Bytes
  header : Bytes
  entities : Nat
  diagnostics : List Diagnostic
  deriving DecidableEq, Repr

namespace Output

def banner (source : Bytes) : Bytes :=
  if source.isEmpty then "/* Generated by lvglgen. Do not edit. */\n"
  else "/* Generated by lvglgen from " ++ C.commentSafe source ++ ". Do not edit. */\n"

def signature (function parentParam : Bytes) : Bytes :=
  "void " ++ function ++ "(lv_obj_t *" ++ parentParam ++ ")"

def definitionLines (st : State) : C.Writer :=
  C.Writer.empty.lines (st.definitions.reverse.map Definition.render)

def localLines (st : State) : C.Writer :=
  C.Writer.empty.indent.lines (st.locals.reverse.map Local.render)

def bodyLines (st : State) : C.Writer :=
  C.Writer.empty.indent.lines (st.body.reverse.map Statement.render)

def sourceText (cfg : Settings) (function headerFile : Bytes) (st : State) : Bytes :=
  let w := ((C.Writer.empty.raw (banner cfg.source)).blank.line "#include \"lvgl.h\"").line
    ("#include \"" ++ headerFile ++ "\"")
  let w := w.blank
  let w := if (definitionLines st).isEmpty then w else (w.append (definitionLines st)).blank
  let w := w.line (signature function cfg.parentParam ++ " \x7b")
  let w := if (localLines st).isEmpty then w else (w.raw (localLines st).text).blank
  ((w.raw (bodyLines st).text).line "\x7d").text

def headerText (cfg : Settings) (function : Bytes) : Bytes :=
  let guard := Bytes.toUpper ("UI_" ++ cfg.name) ++ "_H"
  let ls : List Bytes :=
    [ "#ifndef " ++ guard, "#define " ++ guard, [], "#include \"lvgl.h\"", [], "#ifdef __cplusplus",
      "extern \"C\" \x7b", "#endif", [], signature function cfg.parentParam ++ ";", [],
      "#ifdef __cplusplus", "\x7d /* extern \"C\" */", "#endif", [], "#endif /* " ++
        guard ++ " */" ]
  ((C.Writer.empty.raw (banner cfg.source)).lines ls).text

def ofState (cfg : Settings) (st : State) : Output :=
  let function := "create_ui_" ++ cfg.name
  let headerFile := "ui_" ++ cfg.name ++ ".h"
  { function
    sourceFile := "ui_" ++ cfg.name ++ ".c"
    headerFile
    source := sourceText cfg function headerFile st
    header := headerText cfg function
    entities := st.entities
    diagnostics := st.diagnostics.reverse }

end Output

/-- Transpiles a document, with the sizes of types that are already known.  The log is there whether
or not the run succeeds, as long as it ends. -/
def transpile (doc : Value) (sizes : Api.Sizes := []) :
    Except Failure Output × List Log.Record :=
  match (run cfg doc).outcome { sizes } with
  | none => (.error .endless, [])
  | some (.error fault, st) => (.error (.fault fault), st.log.reverse)
  | some (.ok (), st) => (.ok (.ofState cfg st), st.log.reverse)

def Failure.messageIn (source : Bytes) (failure : Failure) : Bytes :=
  Bytes.onlyIf (!source.isEmpty) (source ++ ": ") ++ failure.message

end UiCodegen.Transpile
