import UiCodegen.Document.Json.Encode
import UiCodegen.Interpreter.Invoker
import UiCodegen.Interpreter.Source.Constants
import UiCodegen.Interpreter.Source.Nodes
import UiCodegen.Interpreter.Source.Registry
import UiCodegen.Interpreter.Source.Scalars
import UiCodegen.Interpreter.Source.Values
import UiCodegen.Transpile.Output

/-!
# The interpreter

A C program that interprets UI documents when it runs: fixed parts, and between them the table of
constants, the readers of types and the invokers of one API.  A document can be compiled into it; it
is checked by transpiling it, and stored as JSON text in pieces.
-/

namespace UiCodegen.Interpreter

def sourceFile : Bytes := "lvgl_json_renderer.c"

def headerFile : Bytes := "lvgl_json_renderer.h"

/-- The number of constants that can be added at run time, if none is given. -/
def defaultMaxUserEnums : Int := 64

/-- The wording for a run that was given no API. -/
def missingIndex : Bytes := "renderer: an API index is required"

/-- What a run is given. -/
structure Settings where
  index : Api.Index
  enums : EnumTable
  filter : Api.Filter := {}
  /-- The number of constants that can be added at run time; the default if it is not positive. -/
  maxUserEnums : Int := 0
  ui : Option Value := none
  /-- The path of the document, for the banner and for messages. -/
  source : Bytes := []

/-- Why there is no interpreter. -/
inductive Fault where
  /-- A parameter type cannot be read. -/
  | missingReader (m : MissingReader)
  | document (source : Bytes) (failure : Transpile.Failure)
  /-- The document holds a number that JSON cannot write, or nests too deeply to be written. -/
  | unwritable
  deriving DecidableEq, Repr

def Fault.message : Fault → Bytes
  | missingReader m => "renderer: " ++ m.message
  | document source failure => "embedded UI: " ++ failure.messageIn source
  | unwritable => "embedded UI: the document cannot be written"

/-! ## Text -/

def ofLines (ls : List Bytes) : Bytes := ls.flatMap (· ++ [10])

def inOrder (parts : List (List Bytes)) : List Bytes := parts.flatten

def bannerLine (source : Bytes) : Bytes :=
  if source.isEmpty then "/* Generated by lvglgen. Do not edit. */"
  else "/* Generated by lvglgen from " ++ C.commentSafe source ++ ". Do not edit. */"

/-- The first part: included files, limits, registry and context. -/
def headLines (banner : Bytes) (maxUserEnums : Int) : List Bytes :=
  [banner, "#include <stdbool.h>", "#include <limits.h>", "#include <stdint.h>",
    "#include <stdio.h>",
   "#include <stdlib.h>", "#include <string.h>", [], "#include \"lvgl.h\"", "#include \"cJSON.h\"",
   "#include \"" ++ headerFile ++ "\"", [], "#ifndef LVGL_JSON_LOG_ERR",
   "#define LVGL_JSON_LOG_ERR(...) LV_LOG_ERROR(__VA_ARGS__)", "#endif",
     "#ifndef LVGL_JSON_LOG_WARN",
   "#define LVGL_JSON_LOG_WARN(...) LV_LOG_WARN(__VA_ARGS__)", "#endif", [],
   "#define MAX_USER_ENUMS " ++ Bytes.ofInt maxUserEnums, "#define LVGL_JSON_MAX_NAME 128",
   "#define LVGL_JSON_MAX_PATH 256"] ++
  Source.invocation ++ Source.registry ++ Source.context

def enumRow (e : EnumTable.Entry) : Bytes :=
  "    \x7b" ++ Bytes.ofNat e.hash.toNat ++ "u, \"" ++ e.name ++ "\", " ++ e.cValue ++ "\x7d,"

def enumLines (t : EnumTable) : List Bytes :=
  let rows := if t.entries.isEmpty then [Bytes.ofString "    \x7b0u, NULL, 0\x7d,"]
    else t.entries.map enumRow
  inOrder
    [["/* Enum names, sorted by (djb2 hash, name). */", [], "typedef struct \x7b",
      "    uint32_t hash;",
      "    const char *name;", "    int value;", "\x7d generated_enum_entry_t;", [],
      "static const generated_enum_entry_t g_generated_enum_table[] = \x7b"],
     rows,
     ["\x7d;", [], "#define GENERATED_ENUM_COUNT " ++ Bytes.ofNat t.entries.length],
     Source.constants]

def scalarLines : List Bytes :=
  Source.numbers ++ Source.flagsAndStrings ++ Source.colors ++ Source.coordinates ++ Source.pointers

def readerHead (function : Bytes) :
    Bytes := "static bool " ++ function ++ "(cJSON *node, void *dest)"

def EnumReader.lines (r : EnumReader) : List Bytes :=
  [[], readerHead r.function, "\x7b", "    int v;",
   "    if (!unmarshal_enum_value(node, \"" ++ r.ctype ++ "\", &v)) \x7b", "        return false;",
   "    \x7d", "    *(" ++ r.ctype ++ " *)dest = (" ++ r.ctype ++ ")v;", "    return true;", "\x7d"]

def FieldRow.itemLines (f : FieldRow) (i : Nat) : List Bytes :=
  ["        if (!unmarshal_value(cJSON_GetArrayItem(node, " ++ Bytes.ofNat i ++
    "), \"" ++ f.ctype ++ "\", &tmp." ++ f.name ++ ", NULL)) \x7b",
   "            return false;",
   "        \x7d"]

def FieldRow.memberLines (f : FieldRow) : List Bytes :=
  ["            if (strcmp(item->string, \"" ++ f.name ++ "\") == 0) \x7b",
   "                if (!unmarshal_value(item, \"" ++ f.ctype ++ "\", &tmp." ++ f.name ++
     ", NULL)) \x7b",
   "                    return false;",
   "                \x7d",
   "                continue;",
   "            \x7d"]

def RecordReader.lines (r : RecordReader) : List Bytes :=
  let count := Bytes.ofNat r.fields.length
  inOrder
    [[[], readerHead r.function, "\x7b", "    " ++ r.ctype ++ " tmp;",
      "    memset(&tmp, 0, sizeof(tmp));", "    if (cJSON_IsArray(node)) \x7b",
      "        if (cJSON_GetArraySize(node) != " ++ count ++ ") \x7b",
      "            LVGL_JSON_LOG_WARN(\"lvgl_json: " ++ r.ctype ++ " takes " ++ count ++
        " values\");",
      "            return false;", "        \x7d"],
     r.fields.zipIdx.flatMap (fun (f, i) => f.itemLines i),
     ["    \x7d else if (cJSON_IsObject(node)) \x7b", "        cJSON *item;",
      "        cJSON_ArrayForEach(item, node) \x7b"],
     r.fields.flatMap FieldRow.memberLines,
     ["            LVGL_JSON_LOG_WARN(\"lvgl_json: " ++ r.ctype ++
       " has no field '%s'\", item->string);",
      "            return false;", "        \x7d", "    \x7d else \x7b",
        "        return false;", "    \x7d",
      "    *(" ++ r.ctype ++ " *)dest = tmp;", "    return true;", "\x7d"]]

def TypeRow.line (r : TypeRow) : Bytes := "    \x7b\"" ++ r.ctype ++ "\", " ++ r.reader ++ "\x7d,"

def typeLines (t : TypeTable) : List Bytes :=
  inOrder
    [["/* Typed unmarshalers */"],
     t.enums.flatMap EnumReader.lines,
     t.records.flatMap RecordReader.lines,
     [[], "typedef struct \x7b", "    const char *type;", "    unmarshal_fn_t fn;",
       "\x7d type_entry_t;", [],
      "static const type_entry_t g_type_table[] = \x7b"],
     t.rows.map TypeRow.line,
     ["    \x7bNULL, NULL\x7d,", "\x7d;"],
     Source.values]

def nodeLines : List Bytes :=
  Source.components ++ Source.references ++ Source.setters ++ Source.entities ++ Source.nodes

/-- The document that is compiled in, in quoted pieces. -/
def embeddedLines (pieces : List Bytes) : List Bytes :=
  inOrder
    [["/* Embedded UI */", [], "static const char g_embedded_ui[] ="],
     pieces.dropLast.map fun piece => "    " ++ piece,
     pieces.getLast?.toList.map fun piece => "    " ++ piece ++ ";",
     [[], "/* The components table points into the parsed tree, so it stays alive. */",
      "static cJSON *g_embedded_root = NULL;", [],
        "bool lvgl_json_render_embedded(lv_obj_t *parent)",
      "\x7b", "    if (!g_embedded_root) \x7b",
      "        g_embedded_root = cJSON_Parse(g_embedded_ui);", "        if (!g_embedded_root) \x7b",
      "            LVGL_JSON_LOG_ERR(\"lvgl_json: embedded UI does not parse near '%.20s'\", " ++
        "cJSON_GetErrorPtr());",
      "            return false;", "        \x7d", "    \x7d",
      "    return lvgl_json_render_ui(g_embedded_root, parent, NULL);", "\x7d"]]

def headerLines (banner : Bytes) (embedded : Bool) : List Bytes :=
  let extra : List Bytes := if embedded then
      [[], "/* Renders the UI document compiled into this file. */",
       "bool lvgl_json_render_embedded(lv_obj_t *parent);"]
    else []
  [banner, "#ifndef LVGL_JSON_RENDERER_H", "#define LVGL_JSON_RENDERER_H", [],
    "#include <stdbool.h>",
   "#include \"lvgl.h\"", "#include \"cJSON.h\"", [], "#ifdef __cplusplus",
     "extern \"C\" \x7b", "#endif", [],
   "/* Renders a UI document under parent. initial_context may be NULL. */",
   "bool lvgl_json_render_ui(cJSON *root, lv_obj_t *parent, cJSON *initial_context);"] ++ extra ++
  [[], "void lvgl_json_register_ptr(const char *name, const char *type, void *ptr);",
   "void *lvgl_json_get_registered_ptr(const char *name, const char *type);",
   "const char *lvgl_json_register_str(const char *text);", "void lvgl_json_clear_registry(void);",
     [],
   "bool lvgl_json_add_user_enum_mapping(const char *name, int value);",
   "void lvgl_json_clear_user_enum_mappings(void);", [], "#ifdef __cplusplus",
     "\x7d /* extern \"C\" */",
   "#endif", [], "#endif /* LVGL_JSON_RENDERER_H */"]

/-! ## The document that is compiled in -/

def pieceWidth : Nat := 96

theorem length_drop_lt {width : Nat} {s : Bytes} (h : width < s.length ∧ 0 < width) :
    (s.drop width).length < s.length := by
  rw [List.length_drop]
  omega

/-- Cuts text into pieces of `width` octets; the last one may be shorter. -/
def pieces (width : Nat) (s : Bytes) : List Bytes :=
  if _h : width < s.length ∧ 0 < width then s.take width :: pieces width (s.drop width) else [s]
termination_by s.length
decreasing_by exact length_drop_lt _h

/-- Text as C string literals of at most `width` octets each. -/
def quotedPieces (width : Nat) (s : Bytes) : List Bytes := (pieces width s).map C.quote

/-! ## The whole -/

/-- The generated files. -/
structure Output where
  source : Bytes
  header : Bytes
  included : List Api.FunctionInfo
  skipped : List (Api.FunctionInfo × Bytes)
  groups : Nat
  enumEntries : Nat
  diagnostics : List Transpile.Diagnostic

def sourceText (banner : Bytes) (maxUserEnums : Int) (enums : EnumTable) (types : TypeTable)
    (table : InvokeTable) (ui : Option (List Bytes)) : Bytes :=
  let part (w : C.Writer) (ls : List Bytes) : C.Writer := (w.raw (ofLines ls)).blank
  let w := [headLines banner maxUserEnums, enumLines enums, scalarLines, typeLines types].foldl part
    C.Writer.empty
  let w := part (table.write w) nodeLines
  (match ui with
    | some pieces => part w (embeddedLines pieces)
    | none => w).text

def selectionLog (s : Api.Selection) : List Log.Record :=
  (s.skipped.map fun (f, reason) =>
    { level := .debug, message := "function skipped",
      attributes := [("name", f.name), ("reason", reason)] }) ++
  [{ level := .info, message := "functions selected",
     attributes := [("included", Bytes.ofNat s.included.length),
       ("skipped", Bytes.ofNat s.skipped.length), ("filtered", Bytes.ofNat s.filtered)] }]

def collisionLog (t : EnumTable) : List Log.Record :=
  t.collisions.map fun run =>
    { level := .debug, message := "enum hash collision",
      attributes := [("names", "[" ++ Bytes.join " " (run.map (·.name)) ++ "]")] }

/-- Checks a document by transpiling it, and writes it in pieces. -/
def embed (cfg : Settings) (sizes : Api.Sizes) (ui : Value) :
    Except Fault (List Transpile.Diagnostic × List Bytes) × List Log.Record :=
  let (result, log) :=
    Transpile.transpile (.make cfg.index cfg.enums cfg.filter [] [] cfg.source) ui sizes
  let result := match result with
    | .error failure => .error (.document cfg.source failure)
    | .ok output =>
      match Document.Json.encode? ui with
      | none => .error .unwritable
      | some text => .ok (output.diagnostics, quotedPieces pieceWidth text)
  (result, Log.withAttributes [("check", "embedded")] log)

/-- What is made from an API: the functions selected, their invokers, and the types that these read.
-/
structure Tables where
  selection : Api.Selection
  invokers : Except MissingReader InvokeTable
  types : TypeTable
  sizes : Api.Sizes

def Tables.build (ix : Api.Index) (filter : Api.Filter) : Tables :=
  let (selection, sizes) := (ix.select filter).run []
  let ((invokers, types), sizes) := ((buildTable ix selection.included).run.run {}).run sizes
  { selection, invokers, types, sizes }

def generate (cfg : Settings) : Except Fault Output × List Log.Record :=
  let maxUserEnums := if cfg.maxUserEnums ≤ 0 then defaultMaxUserEnums else cfg.maxUserEnums
  let { selection, invokers, types, sizes } := Tables.build cfg.index cfg.filter
  match invokers with
  | .error m => (.error (.missingReader m), selectionLog selection)
  | .ok table =>
    let banner := bannerLine cfg.source
    let finish (diagnostics : List Transpile.Diagnostic) (ui : Option (List Bytes)) : Output :=
      { source := sourceText banner maxUserEnums cfg.enums types table ui
        header := ofLines (headerLines banner ui.isSome)
        included := selection.included
        skipped := selection.skipped
        groups := table.invokers.length
        enumEntries := cfg.enums.entries.length
        diagnostics }
    let log := selectionLog selection ++ collisionLog cfg.enums
    match cfg.ui with
    | none => (.ok (finish [] none), log)
    | some ui =>
      let (embedded, more) := embed cfg sizes ui
      (embedded.map fun (diagnostics, pieces) => finish diagnostics (some pieces), log ++ more)

end UiCodegen.Interpreter
