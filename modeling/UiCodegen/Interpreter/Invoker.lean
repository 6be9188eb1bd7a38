import UiCodegen.Api.Filter
import UiCodegen.Api.Signature
import UiCodegen.C.Writer
import UiCodegen.Interpreter.TypeTable
import UiCodegen.Transpile.State

/-!
# Invokers

The C interpreter calls functions of the API by name.  Functions of one signature share an invoker
(a shim), which reads the arguments, completes them and makes the call; constructors of widgets share another.
-/

namespace UiCodegen.Interpreter

variable (ix : Api.Index)

/-! ## The table -/

def isCreateName (name : Bytes) : Bool :=
  match (Bytes.dropHead? name "lv_").bind (Bytes.dropTail? · "_create") with
  | some middle =>
    !middle.isEmpty && middle.all fun b => (97 ≤ b && b ≤ 122) || Bytes.isDigit b || b == 95
  | none => false

def isConstructor (f : Api.FunctionInfo) : Bool :=
  isCreateName f.name && (f.params.map (·.ctype)) == [Bytes.ofString "lv_obj_t *"] &&
    f.result == "lv_obj_t *"

/-- The invoker of the functions of one signature. -/
structure Invoker where
  name : Bytes
  signature : Api.Signature
  functions : List Api.FunctionInfo
  target : Bool
  selector : Bool

/-- What a call of a function may leave out. -/
structure Flags where
  target : Bool := false
  selector : Bool := false
  /-- An array is the first argument as a whole, not one argument per item. -/
  whole : Bool := false
  deriving DecidableEq, Repr

def Flags.expr (f : Flags) : Bytes :=
  let parts : List Bytes :=
    (if f.target then [Bytes.ofString "INVOKE_TARGET"] else []) ++
    (if f.selector then [Bytes.ofString "INVOKE_SELECTOR"] else []) ++
    (if f.whole then [Bytes.ofString "INVOKE_WHOLE"] else [])
  if parts.isEmpty then "0" else Bytes.join " | " parts

/-- A row of the table: a function and how it is called. -/
structure InvokeRow where
  name : Bytes
  invoker : Bytes
  arity : Nat
  flags : Flags
  result : Bytes
  deriving DecidableEq, Repr

/-- The invokers and the functions that they call. -/
structure InvokeTable where
  invokers : List Invoker
  rows : List InvokeRow
  creates : Bool

/-- A parameter type that cannot be read, with the signature that asks for it. -/
structure MissingReader where
  ctype : Bytes
  signature : Api.Signature
  deriving DecidableEq, Repr

/-- The wording for a type that cannot be read. -/
def MissingReader.message (m : MissingReader) : Bytes :=
  "no unmarshaler for " ++ m.ctype ++ " in " ++ m.signature.text

/-- The name of invoker number `i`, from zero on. -/
def invokerName (i : Nat) : Bytes := "invoke_sig_" ++ Bytes.ofNat (i + 1)

def flagsOf (f : Api.FunctionInfo) : Flags where
  target := 1 ≤ f.arity && ix.isTargetType (Transpile.paramType f 0)
  selector := Transpile.hasSelector f
  whole := 2 ≤ f.arity &&
    match (ix.describe (Transpile.paramType f 1)).cls with
    | .coordArray | .struct => true
    | _ => false

def addArgs (ix : Api.Index) (s : Api.Signature) : List Bytes → ExceptT MissingReader TableM Unit
  | [] => pure ()
  | ctype :: rest => do
    match ← TypeTable.add ix ctype with
    | some _ => addArgs ix s rest
    | none => throw { ctype, signature := s }

/-- The invoker of group number `i`. -/
def invokerFor (i : Nat) (g : Api.SignatureGroup) : Invoker where
  name := invokerName i
  signature := g.signature
  functions := g.functions
  target := (g.signature.args.head?.map ix.isTargetType).getD false
  selector := 2 ≤ g.signature.args.length && g.signature.args.getLast? == some
    Transpile.selectorType

/-- The invokers of groups, numbered from `i` on. -/
def invokersOf (ix : Api.Index) (i : Nat) :
    List Api.SignatureGroup → ExceptT MissingReader TableM (List Invoker)
  | [] => pure []
  | g :: rest => do
    addArgs ix g.signature g.signature.args
    let others ← invokersOf ix (i + 1) rest
    pure (invokerFor ix i g :: others)

def invokerOf (invokers : List Invoker) (f : Api.FunctionInfo) : Bytes :=
  ((invokers.reverse.find? fun s => s.functions.any (·.name == f.name)).map (·.name)).getD []

def rowOf (invokers : List Invoker) (f : Api.FunctionInfo) : InvokeRow where
  name := f.name
  invoker := if isConstructor f then "invoke_create" else invokerOf invokers f
  arity := f.arity
  flags := if isConstructor f then { target := true } else flagsOf ix f
  result := f.result

/-- The functions that get invokers by signature: those selected that are no constructors.  If there
are none, every function of the API gets an invoker. -/
def invoked (functions : List Api.FunctionInfo) : List Api.FunctionInfo :=
  let grouped := functions.filter (!isConstructor ·)
  if grouped.isEmpty then ix.functions else grouped

def buildTable (functions : List Api.FunctionInfo) :
    ExceptT MissingReader TableM InvokeTable := do
  let invokers ← invokersOf ix 0 (Api.groupBySignature (invoked ix functions))
  pure { invokers, rows := functions.map (rowOf ix invokers),
         creates := functions.any isConstructor }

/-! ## Its text -/

/-- The type of a local that holds an argument: without qualifiers, unless it is a pointer. -/
def localType (ctype : Bytes) : Bytes :=
  match Api.CType.parse? ctype with
  | some c => if 0 < c.pointers then ctype else c.unqualified.text
  | none => ctype

def pointerTo (ctype : Bytes) : Bytes :=
  if Bytes.endsWith ctype "*" then ctype ++ "*" else ctype ++ " *"

def spaced (ctype : Bytes) : Bytes := if Bytes.endsWith ctype "*" then ctype else ctype ++ " "

/-- Opens a block, writes lines into it and closes it. -/
def blockOf (head : Bytes) (ls : List Bytes) (w : C.Writer) : C.Writer :=
  w.block head (fun w => w.lines ls) []

def invokerHead (name : Bytes) : Bytes :=
  "static bool " ++ name ++ "(void *target, void *dest, cJSON *args, void *fn)"

def writeCreate (w : C.Writer) : C.Writer :=
  let w := (w.line "typedef lv_obj_t *(*create_fn_t)(lv_obj_t *parent);").blank
  let w := w.comment "invoke_create calls lv_<widget>_create with target as the parent."
  let w := w.block (invokerHead "invoke_create") (fun w =>
    let w := (w.line "lv_obj_t *parent = (lv_obj_t *)target;").line "lv_obj_t *obj;"
    let w := w.block "if (cJSON_GetArraySize(args) == 1)" (blockOf
      "if (!unmarshal_value(cJSON_GetArrayItem(args, 0), \"lv_obj_t *\", &parent, target))"
      ["return false;"]) []
    let w := w.line "obj = ((create_fn_t)fn)(parent);"
    let w := blockOf "if (!obj)" ["return false;"] w
    let w := blockOf "if (dest)" ["*(lv_obj_t **)dest = obj;"] w
    w.line "return true;") []
  w.blank

/-- The name of the local for argument number `i`. -/
def argName (i : Nat) : Bytes := 97 :: Bytes.ofNat i

namespace Invoker

variable (s : Invoker)

def names : List Bytes := s.functions.map (·.name)

def typedefName : Bytes := Bytes.trimHead s.name "invoke_" ++ "_fn_t"

def countLines : List Bytes :=
  let n := s.signature.args.length
  let otherwise (condition : Bytes) (count : Nat) : Bytes :=
    "\x7d else if (" ++ condition ++ "n == " ++ Bytes.ofNat count ++ ") \x7b"
  let first : Bytes := "if (n == " ++ Bytes.ofNat n ++ ") \x7b"
  let shorter : List Bytes :=
    if s.target then
      [otherwise "target && " (n - 1), "    skip = 1;"] ++
      (if s.selector then [otherwise "target && " (n - 2), "    skip = 1;", "    tail = 1;"]
        else [])
    else if s.selector then [otherwise [] (n - 1), "    tail = 1;"]
    else []
  let failure : List Bytes :=
    ["\x7d else \x7b",
     "    LVGL_JSON_LOG_ERR(\"lvgl_json: %s expects " ++ Bytes.ofNat n ++
       " arguments, got %d\", " ++
      C.quote (Bytes.join "/" s.names) ++ ", n);",
     "    return false;",
     "\x7d"]
  first :: (shorter ++ failure)

/-- Reads argument number `i`. -/
def writeArg (w : C.Writer) (i : Nat) (ctype : Bytes) : C.Writer :=
  let position := Bytes.ofNat i ++ Bytes.onlyIf s.target " - skip"
  let condition :=
    Bytes.onlyIf (s.target && i == 0) "!skip && " ++
    Bytes.onlyIf (s.selector && i + 1 == s.signature.args.length) "!tail && " ++
    "!unmarshal_value(cJSON_GetArrayItem(args, " ++ position ++ "), " ++ C.quote ctype ++ ", &" ++
    argName i ++ ", target)"
  blockOf ("if (" ++ condition ++ ")") ["return false;"] w

def writeCall (w : C.Writer) : C.Writer :=
  let args := (List.range s.signature.args.length).map argName
  let call := "((" ++ s.typedefName ++ ")fn)(" ++ Bytes.join ", " args ++ ")"
  let result := localType s.signature.result
  if result == "void" then (w.line "(void)dest;").line (call ++ ";")
  else
    let w :=
      w.block "if (dest)" (fun w => w.line ("*(" ++ pointerTo result ++ ")dest = " ++ call ++ ";"))
      " else \x7b"
    ((w.indent.line (call ++ ";")).dedent).line "\x7d"

def writeBody (w : C.Writer) : C.Writer :=
  let args := s.signature.args
  let locals := args.zipIdx.map fun (ctype, i) =>
    Transpile.declarator (localType ctype) (argName i) ++ ";"
  let clear := (List.range args.length).map fun i =>
    "memset(&" ++ argName i ++ ", 0, sizeof(" ++ argName i ++ "));"
  let w := (w.lines locals).line "int n = cJSON_GetArraySize(args);"
  let w := if s.target then w.line "int skip = 0;" else w
  let w := if s.selector then w.line "int tail = 0;" else w
  let w := if args.isEmpty then w.line "(void)target;" else w
  let w := (w.lines clear).lines s.countLines
  let w := if s.target then
      blockOf "if (skip)" ["a0 = (" ++ localType (args.headD []) ++ ")target;"] w
    else w
  let w := args.zipIdx.foldl (fun w (ctype, i) => s.writeArg w i ctype) w
  (s.writeCall w).line "return true;"

def write (w : C.Writer) (s : Invoker) : C.Writer :=
  let params := if s.signature.args.isEmpty then Bytes.ofString "void"
    else Bytes.join ", " s.signature.args
  let w :=
    w.line ("typedef " ++ spaced (localType s.signature.result) ++ "(*" ++ s.typedefName ++ ")(" ++
    params ++ ");")
  let w := w.comment (s.signature.text ++ ": " ++ Bytes.join ", " s.names)
  (w.block (invokerHead s.name) s.writeBody []).blank

end Invoker

def InvokeRow.line (r : InvokeRow) : Bytes :=
  "\x7b" ++ C.quote r.name ++ ", " ++ r.invoker ++ ", (void *)" ++ r.name ++ ", " ++
    Bytes.ofNat r.arity ++
  ", " ++ r.flags.expr ++ ", " ++ C.quote r.result ++ "\x7d,"

def writeLookup (w : C.Writer) : C.Writer :=
  let w := w.block "static const invoke_entry_t *find_invoke_entry(const char *name)" (fun w =>
    let w := w.line "const invoke_entry_t *e;"
    let w := w.block "for (e = g_invoke_table; e->name; e++)"
      (blockOf "if (strcmp(e->name, name) == 0)" ["return e;"]) []
    w.line "return NULL;") []
  w.blank

def InvokeTable.write (t : InvokeTable) (w : C.Writer) : C.Writer :=
  let w := (w.line "/* Invokers */").blank
  let w := if t.creates then writeCreate w else w
  let w := t.invokers.foldl Invoker.write w
  let w := (w.line "static const invoke_entry_t g_invoke_table[] = \x7b").indent
  let w := (w.lines (t.rows.map InvokeRow.line)).line "\x7bNULL, NULL, NULL, 0, 0, NULL\x7d,"
  writeLookup (w.dedent.line "\x7d;").blank

end UiCodegen.Interpreter
