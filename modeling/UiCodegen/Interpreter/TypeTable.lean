import UiCodegen.Api.Representable
import UiCodegen.C.Identifier

/-!
# The type table

The C interpreter reads a document value by the type that is expected.  Its table maps type strings
to readers (unmarshalers); enum types and small records get readers of their own.  Types enter the table when the
parameter of a function asks for them, behind those that are always there.
-/

namespace UiCodegen.Interpreter

/-- A row of the table: a type and the function that reads it. -/
structure TypeRow where
  ctype : Bytes
  reader : Bytes
  deriving DecidableEq, Repr

/-- A reader made for an enum type. -/
structure EnumReader where
  function : Bytes
  ctype : Bytes
  deriving DecidableEq, Repr

/-- A field of a record with a reader. -/
structure FieldRow where
  name : Bytes
  ctype : Bytes
  deriving DecidableEq, Repr

/-- A reader made for a record. -/
structure RecordReader where
  function : Bytes
  ctype : Bytes
  fields : List FieldRow
  deriving DecidableEq, Repr

def baseRows : List TypeRow :=
  [("int32_t", "unmarshal_coord32"), ("lv_coord_t", "unmarshal_coord"),
    ("lv_opa_t", "unmarshal_opa"),
   ("lv_color_t", "unmarshal_color"), ("const char *", "unmarshal_string"),
   ("char *", "unmarshal_string"), ("bool", "unmarshal_bool"), ("float", "unmarshal_float"),
   ("double", "unmarshal_double"), ("int8_t", "unmarshal_int8"), ("uint8_t", "unmarshal_uint8"),
   ("int16_t", "unmarshal_int16"), ("uint16_t", "unmarshal_uint16"),
     ("uint32_t", "unmarshal_uint32"),
   ("int64_t", "unmarshal_int64"), ("uint64_t", "unmarshal_uint64"), ("size_t", "unmarshal_size_t"),
   ("int", "unmarshal_int"), ("unsigned", "unmarshal_unsigned"),
     ("unsigned int", "unmarshal_unsigned"),
   ("char", "unmarshal_char"), ("void *", "unmarshal_src"), ("const void *", "unmarshal_src"),
   ("lv_obj_t *", "unmarshal_pointer"), ("const int32_t *", "unmarshal_coord_array"),
   ("int32_t *", "unmarshal_coord_array")].map
    fun (ctype, reader) => ⟨Bytes.ofString ctype, Bytes.ofString reader⟩

def integerReaders : List (Bytes × Bytes) :=
  [("int32_t", "unmarshal_coord32"), ("int8_t", "unmarshal_int8"),
    ("signed char", "unmarshal_int8"),
   ("uint8_t", "unmarshal_uint8"), ("unsigned char", "unmarshal_uint8"),
     ("int16_t", "unmarshal_int16"),
   ("short", "unmarshal_int16"), ("uint16_t", "unmarshal_uint16"),
   ("unsigned short", "unmarshal_uint16"), ("uint32_t", "unmarshal_uint32"),
   ("int64_t", "unmarshal_int64"), ("long", "unmarshal_int64"), ("long long", "unmarshal_int64"),
   ("intptr_t", "unmarshal_int64"), ("ptrdiff_t", "unmarshal_int64"),
     ("ssize_t", "unmarshal_int64"),
   ("uint64_t", "unmarshal_uint64"), ("unsigned long", "unmarshal_uint64"),
   ("unsigned long long", "unmarshal_uint64"), ("uintptr_t", "unmarshal_uint64"),
   ("size_t", "unmarshal_size_t"), ("int", "unmarshal_int"), ("signed", "unmarshal_int"),
   ("unsigned", "unmarshal_unsigned"), ("unsigned int", "unmarshal_unsigned"),
   ("char", "unmarshal_char")].map fun (name, reader) =>
     (Bytes.ofString name, Bytes.ofString reader)

/-- The types that documents can supply values for. -/
structure TypeTable where
  rows : List TypeRow := baseRows
  seen : List Bytes := baseRows.map (·.ctype)
  enums : List EnumReader := []
  records : List RecordReader := []
  /-- The names of the readers in `enums` and `records`. -/
  defined : List Bytes := []

/-- Steps that fill a type table; sizes of records are remembered on the way. -/
abbrev TableM := StateT TypeTable (StateM Api.Sizes)

namespace TypeTable

variable (ix : Api.Index)

def reader? (t : TypeTable) (ctype : Bytes) : Option Bytes :=
  (t.rows.find? (·.ctype == ctype)).map (·.reader)

/-- The reader of a type, which enters the table if `make` has a reader for it. -/
def addWith (make : Bytes → TableM (Option Bytes)) (ctype : Bytes) : TableM (Option Bytes) := do
  if (← get).seen.contains ctype then pure ((← get).reader? ctype)
  else
    modify fun t => { t with seen := ctype :: t.seen }
    match ← make ctype with
    | none => pure none
    | some reader =>
      modify fun t => { t with rows := t.rows ++ [⟨ctype, reader⟩] }
      pure (some reader)

/-- The reader of an enum type, made the first time. -/
def enumReader (info : Api.TypeInfo) : TableM Bytes := do
  let ctype := info.ctype.unqualified.text
  let function := "unmarshal_enum_" ++ C.identifier ctype
  if !(← get).defined.contains function then
    modify fun t =>
      { t with defined := function :: t.defined, enums := t.enums ++ [{ function, ctype }] }
  pure function

def plainReader (ctype : Bytes) : TableM (Option Bytes) := do
  let info := ix.describe ctype
  match info.cls with
  | .int =>
    if info.ctype.base == "lv_coord_t" then pure (some "unmarshal_coord")
    else if info.ctype.base == "lv_opa_t" then pure (some "unmarshal_opa")
    else pure (integerReaders.lookup info.prim)
  | .bool => pure (some "unmarshal_bool")
  | .float =>
    pure (some (if info.prim == "float" then Bytes.ofString "unmarshal_float"
      else Bytes.ofString "unmarshal_double"))
  | .enum => some <$> enumReader info
  | .color => pure (some "unmarshal_color")
  | .string => pure (some "unmarshal_string")
  | .coordArray => pure (some "unmarshal_coord_array")
  | .pointer | .functionPointer =>
    pure (some (if info.isStringLike then Bytes.ofString "unmarshal_src"
      else Bytes.ofString "unmarshal_pointer"))
  | _ => pure none

def fieldRows? (ix : Api.Index) : List Api.FieldRecord → TableM (Option (List FieldRow))
  | [] => pure (some [])
  | f :: rest => do
    if f.isBitField then pure none
    else
      let ctype := ix.fieldType f
      match ← addWith (plainReader ix) ctype with
      | none => pure none
      | some _ =>
        match ← fieldRows? ix rest with
        | none => pure none
        | some rows => pure (some (⟨f.name, ctype⟩ :: rows))

def recordFunction (name : Bytes) : Bytes := "unmarshal_struct_" ++ C.identifier name

/-- The reader that reads a record field by field, made the first time its name is asked for. -/
def fieldsReader? (name : Bytes) (fields : List Api.FieldRecord) :
    TableM (Option Bytes) := do
  let function := recordFunction name
  if (← get).defined.contains function then pure (some function)
  else match ← fieldRows? ix fields with
    | none => pure none
    | some fields =>
      modify fun t =>
        { t with
          defined := function :: t.defined
          records := t.records ++ [{ function, ctype := name, fields }] }
      pure (some function)

def recordReader? (ctype : Bytes) (info : Api.TypeInfo) :
    TableM (Option Bytes) := do
  match info.record with
  | none => pure none
  | some record =>
    if ← ix.isSmallStruct ctype then fieldsReader? ix info.ctype.unqualified.text record.fields
    else pure none

def makeReader (ctype : Bytes) : TableM (Option Bytes) :=
  let info := ix.describe ctype
  if info.cls == .struct then recordReader? ix ctype info else plainReader ix ctype

def add (ctype : Bytes) : TableM (Option Bytes) := addWith (makeReader ix) ctype

end TypeTable

end UiCodegen.Interpreter
