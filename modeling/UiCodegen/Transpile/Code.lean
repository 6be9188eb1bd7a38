import UiCodegen.C.Writer
import UiCodegen.Registry

/-!
# The generated code as data

Expressions, statements and definitions of the generated C.  A run collects them; text is made of
them at the end, one line for each.
-/

namespace UiCodegen.Transpile

/-- An expression of the generated code. -/
inductive Expr where
  | text (s : Bytes)
  | static (name : Bytes)
  | entity (e : Entity)
  | call (function : Bytes) (args : List Expr)
  /-- An entity that the document does not define, looked up by name when the code runs. -/
  | registered (ctype name tag : Bytes)
  /-- A record; each part is written behind its label. -/
  | compound (ctype : Bytes) (parts : List (Bytes × Expr))
  deriving Repr

namespace Expr

mutual

def render : Expr → Bytes
  | .text s => s
  | .static name => name
  | .entity e => e.expr
  | .call function args => function ++ "(" ++ Bytes.join ", " (renderAll args) ++ ")"
  | .registered ctype name tag =>
    "(" ++ ctype ++ ")lvgl_json_get_registered_ptr(" ++ C.quote name ++ ", " ++ C.quote tag ++ ")"
  | .compound ctype parts =>
      "(" ++ ctype ++ ")\x7b" ++ Bytes.join ", " (renderParts parts) ++ "\x7d"

def renderAll : List Expr → List Bytes
  | [] => []
  | e :: rest => e.render :: renderAll rest

def renderParts : List (Bytes × Expr) → List Bytes
  | [] => []
  | (label, e) :: rest => (label ++ e.render) :: renderParts rest

end

end Expr

def declarator (ctype name : Bytes) : Bytes :=
  if Bytes.endsWith ctype "*" then ctype ++ name else ctype ++ " " ++ name

/-- A statement of the generated function. -/
inductive Statement where
  | comment (text : Bytes)
  | create (ctype name constructor : Bytes) (parent : Entity)
  | initStyle (name : Bytes)
  | call (function : Bytes) (args : List Expr)
  /-- Gives a local its value, perhaps through a cast. -/
  | assign (name : Bytes) (cast : Option Bytes) (e : Expr)
  deriving Repr

def Statement.render : Statement → Bytes
  | comment text => "/* " ++ C.commentSafe text ++ " */"
  | create ctype name constructor parent =>
    declarator ctype name ++ " = " ++ C.call constructor [parent.expr] ++ ";"
  | initStyle name => "lv_style_init(&" ++ name ++ ");"
  | call function args => (Expr.call function args).render ++ ";"
  | assign name none e => name ++ " = " ++ e.render ++ ";"
  | assign name (some ctype) e => name ++ " = (" ++ ctype ++ ")" ++ e.render ++ ";"

/-- A definition at file scope. -/
inductive Definition where
  | string (name text : Bytes)
  | array (name elemType : Bytes) (items : List Expr)
  | style (name : Bytes)
  /-- The function that looks up entities by name when the code runs. -/
  | registryLookup
  deriving Repr

def Definition.render : Definition → Bytes
  | string name text => "static const char " ++ name ++ "[] = " ++ C.quote text ++ ";"
  | array name elemType items =>
    "static const " ++ elemType ++ " " ++ name ++ "[] = \x7b" ++
    Bytes.join ", " (Expr.renderAll items) ++ "\x7d;"
  | style name => "static lv_style_t " ++ name ++ ";"
  | registryLookup =>
    "extern void *lvgl_json_get_registered_ptr(const char *name, const char *type);"

def Definition.name : Definition → Bytes
  | string name _ => name
  | array name _ _ => name
  | style name => name
  | registryLookup => "lvgl_json_get_registered_ptr"

/-- A local of the generated function. -/
structure Local where
  ctype : Bytes
  name : Bytes
  deriving DecidableEq, Repr

def Local.render (l : Local) : Bytes := declarator l.ctype l.name ++ ";"

end UiCodegen.Transpile
