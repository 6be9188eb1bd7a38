import UiCodegen.Api.TypeNode

/-!
# API descriptions

The records of an API description: functions, enums, structs and unions, typedefs and preprocessor
definitions, each in the order of the document.  Values of enum members and bit widths of fields
keep the text they were written with, because their notation decides what they mean.
-/

namespace UiCodegen.Api

/-- A function as described. -/
structure FunctionRecord where
  name : Bytes := []
  type : Option TypeNode := none
  args : List (Option TypeNode) := []
  doc : Bytes := []
  deriving Repr, Inhabited

/-- A member of an enum as described. -/
structure MemberRecord where
  name : Bytes := []
  /-- The text of the value, quotes included. -/
  value : Bytes := []
  deriving DecidableEq, Repr, Inhabited

/-- An enum as described. -/
structure EnumRecord where
  name : Bytes := []
  type : Option TypeNode := none
  members : List MemberRecord := []
  deriving Repr, Inhabited

/-- A field of a struct or union. -/
structure FieldRecord where
  name : Bytes := []
  type : Option TypeNode := none
  /-- The text of the bit width, quotes included. -/
  bitWidth : Bytes := []
  deriving Repr, Inhabited

/-- A struct or union. -/
structure StructRecord where
  name : Bytes := []
  kind : Kind := Kind.absent
  fields : List FieldRecord := []
  deriving Repr, Inhabited

/-- A typedef. -/
structure TypedefRecord where
  name : Bytes := []
  type : Option TypeNode := none
  deriving Repr, Inhabited

/-- A preprocessor definition.  One with a parameter list, even an empty one, looks like a
function. -/
structure DefineRecord where
  name : Bytes := []
  params : Option (List Bytes) := none
  body : Bytes := []
  deriving DecidableEq, Repr, Inhabited

/-- A whole API description. -/
structure Description where
  functions : List FunctionRecord := []
  enums : List EnumRecord := []
  structs : List StructRecord := []
  unions : List StructRecord := []
  typedefs : List TypedefRecord := []
  defines : List DefineRecord := []
  deriving Repr, Inhabited

/-- `u`, `U`, `l` and `L`. -/
def isIntegerSuffix (b : UInt8) : Bool := b == 117 || b == 85 || b == 108 || b == 76

/-- The value of a member: an integer in any C notation, with or without quotes and suffix.  A value
above the signed range stands for the word with the same bits. -/
def MemberRecord.intValue? (m : MemberRecord) : Option Int64 :=
  let text := Blank.trim m.value
  if text.isEmpty || text == "null" then none
  else
    let digits := Bytes.dropEndWhile isIntegerSuffix (Bytes.trimBoth (· == 34) text)
    match Integer.parse? .announced digits with
    | some n => some (Int64.ofInt n)
    | none => (Integer.parseUnsigned? .announced digits).map fun n => Int64.ofNat n

/-- Whether a field has a width in bits. -/
def FieldRecord.isBitField (f : FieldRecord) : Bool :=
  let text := Bytes.trimBoth (· == 34) (Blank.trim f.bitWidth)
  !text.isEmpty && text != "null"

/-- Whether a macro takes arguments. -/
def DefineRecord.isFunctionLike (d : DefineRecord) : Bool := d.params.isSome

end UiCodegen.Api
