import UiCodegen.Config.Setting
import UiCodegen.Interpreter.Output
import UiCodegen.Project.Settings
import UiCodegen.Text.Blank

/-!
# Configuration

The settings of the command line, each with its type.
-/

namespace UiCodegen

/-- The configuration of a command. -/
structure Config where
  api : Bytes := []
  outputDir : Bytes := []
  ui : Bytes := []
  mode : Bytes := Project.Mode.preview.name
  /-- Whether all log records are shown. -/
  debug : Bool := false
  /-- The exported definitions; none stands for the default ones. -/
  defines : List Bytes := []
  enumValues : Bytes := []
  name : Bytes := []
  parentParam : Bytes := Transpile.defaultParent
  wanted : List Bytes := []
  unwanted : List Bytes := []
  maxUserEnums : Int := Interpreter.defaultMaxUserEnums
  format : Bytes := "auto"
  deriving DecidableEq, Repr

namespace Config

/-- The settings that hold if nothing else is given. -/
def defaults : Source :=
  [("mode", .text Project.Mode.preview.name), ("debug", .bool false),
   ("parent_param", .text Transpile.defaultParent),
   ("max_user_enums", .int Interpreter.defaultMaxUserEnums), ("output", .text "auto")]

/-- The elements of lists that may themselves be lists with commas, without blanks around them. -/
def splitList (items : List Bytes) : List Bytes :=
  ((Bytes.splitOn 44 (Bytes.join "," items)).map Blank.trim).filter (!·.isEmpty)

/-- The configuration of settings; none if a value does not fit. -/
def ofSource? (s : Source) : Option Config := do
  let value (name : String) : Setting := (s.setting? name).getD .null
  return {
    api := ← (value "api").asText?
    outputDir := ← (value "output_dir").asText?
    ui := ← (value "ui").asText?
    mode := ← (value "mode").asText?
    debug := ← (value "debug").asBool?
    defines := splitList (← (value "macros").asTexts?)
    enumValues := ← (value "enum_values").asText?
    name := ← (value "name").asText?
    parentParam := ← (value "parent_param").asText?
    wanted := ← (value "include").asTexts?
    unwanted := ← (value "exclude").asTexts?
    maxUserEnums := ← (value "max_user_enums").asInt?
    format := ← (value "output").asText? }

def project (c : Config) : Project.Settings where
  api := c.api
  outputDir := c.outputDir
  ui := c.ui
  mode := c.mode
  defines := if c.defines.isEmpty then none else some c.defines
  enumValues := c.enumValues
  name := c.name
  parentParam := c.parentParam
  wanted := c.wanted
  unwanted := c.unwanted
  maxUserEnums := c.maxUserEnums

end Config

end UiCodegen
