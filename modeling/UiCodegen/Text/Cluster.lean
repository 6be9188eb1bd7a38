import UiCodegen.Text.Category
import UiCodegen.Text.Utf8
import UiCodegen.Text.Width

/-!
# Clusters

What a reader takes for one character may be several code points: a letter with its marks, a
syllable written in parts, a flag, or pictures joined to one.  Such a cluster is shown as a whole,
and its width follows from its first member and what is added to it.

`Joint.joins` tells whether a cluster goes on with a code point, and `first` is the cluster that
begins a text.
-/

namespace UiCodegen.Cluster

/-! ## What a code point does to a cluster -/

/-- The part that a code point takes in clusters. -/
inductive Kind where
  | other
  | control
  | carriageReturn
  | lineFeed
  /-- A mark that is added to what stands in front of it. -/
  | mark
  /-- The mark that joins two pictures. -/
  | joiner
  /-- A mark that takes room of its own. -/
  | spacing
  /-- A sign that belongs to what follows it. -/
  | leading
  /-- One of the two letters of a flag. -/
  | flag
  /-- The first sound of a syllable. -/
  | onset
  | vowel
  /-- The last sound of a syllable. -/
  | coda
  /-- A whole syllable; a closed one has a last sound. -/
  | syllable (closed : Bool)
  /-- A picture, which is shown in colour or as a letter would be. -/
  | picture (coloured : Bool)
  deriving DecidableEq, Repr

/-- The letters of the kinds in runs, from U+0000 on.  Where `G` stands, the kind follows from the
general category. -/
def table : String :=
  "10GN2GR155GI3GCI1361G6P22GC192GP49GP384G2P6O74GP219GX24GX358G2X23GX102GX24GX234GX18G2X103GX15GP
   8GX119GX15GX83GS127GS375G2O11GO41G15O18GO3G6O2G14O99G96L72V88T1550GC594GOG2O106G49O53G6X1232GCGJ
   2C26G5C13GI12GI22G16C178GI22GI90G6I15G2I367G2E12GI95GI70GI25G4E3IE2IE4G3I199GI231G2I10GI9GI58G2I
   2EG6IG12IG2E50I12E43IE6I10G3IE13IE8I2E17I2E5I2E8IE5IE21IE7I2EIE4IE2IE7IE2G2I2E7IGIGI6GI3GI6GE10G
   2I15GI2GI4GEGE4G3EGE11G5I45G3E9GI14GE14GE372G2I463G3I19G2E51GE4GE1240G2XI12GI601GIGI30406G29L
   254GOG51O336G11172H12G23V4G49T9987GC158G2X80G12C3437G322O79G3O448GP15GP244G2P378GX24GX96G125O
   123GX12GX241GX366G2X2O526GX14GPGP248GP73G6P214G207O279GP443GP87G5334O16C11486G2514O20912G4C5313G
   X8G5X8C5235G738O1840G4IE202IE48I13G3I31GI60G6I12G2I14GE2G10E18G57I26FGE14I10GE20GE2G5EI3EG4I9G7I
   2E174I33E12I9EI70EI22E12I43E4I5E12I17E3IE3I3E5X63EIEI187E2I63E8G5I4EI24E18IE26I2E13IE86I85E48G
   70E6IE3I3E2I3E4I4E11I2E7I9E3I116G12I85G11I12E4IE15I12G4I56G8I10G6I40G8I30G82I12G47EG10EG185E112I
   13E3I9E7I46EI7E8I14E4I9E7I9E7I256G1022I786434G32C96G128C240G3600C192512G"

def runs : Array Runs.Run := Runs.parse table

/-- Whether a whole syllable has a last sound: of each 28 in a row, all but the first do. -/
def isClosed (code : Nat) : Bool := (code - 0xac00) % 28 != 0

/-- The kind of the code points in a category, but for those that `table` names. -/
def Kind.ofCategory (category : Bytes) : Kind :=
  if category == "Cf" || category == "Me" || category == "Mn" then .mark
  else if category == "Mc" then .spacing
  else if category == "Cc" || category == "Zl" || category == "Zp" then .control
  else .other

/-- The kind of a code point. -/
def Kind.ofCode (code : Nat) : Kind :=
  match (Runs.value runs code).head? with
  | some 67 => .control
  | some 69 => .picture true
  | some 70 => .flag
  | some 72 => .syllable (isClosed code)
  | some 73 => .picture false
  | some 74 => .joiner
  | some 76 => .onset
  | some 78 => .lineFeed
  | some 79 => .other
  | some 80 => .leading
  | some 82 => .carriageReturn
  | some 83 => .spacing
  | some 84 => .coda
  | some 86 => .vowel
  | some 88 => .mark
  | _ => ofCategory (Category.ofCode code)

/-! ## Where a cluster ends -/

/-- What the end of a cluster waits for. -/
inductive Joint where
  /-- Only marks can follow. -/
  | loose
  /-- A line feed can follow. -/
  | carriageReturn
  /-- Nothing can follow. -/
  | ended
  /-- All but control characters can follow. -/
  | leading
  /-- Any part of a syllable but a last sound can follow. -/
  | onset
  /-- A vowel or a last sound can follow. -/
  | vowel
  /-- A last sound can follow. -/
  | coda
  /-- A joiner can follow, and then a picture. -/
  | picture
  /-- A picture can follow. -/
  | joined
  /-- The other letter of a flag can follow. -/
  | flag
  deriving DecidableEq, Repr

namespace Joint

/-- Whether a cluster goes on with a code point of some kind. -/
def joins : Joint → Kind → Bool
  | carriageReturn, .lineFeed => true
  | carriageReturn, _ | ended, _ => false
  | _, .control | _, .carriageReturn | _, .lineFeed => false
  | _, .mark | _, .joiner | _, .spacing => true
  | leading, _ => true
  | onset, .onset | onset, .vowel | onset, .syllable _ => true
  | vowel, .vowel | vowel, .coda => true
  | coda, .coda => true
  | joined, .picture _ => true
  | flag, .flag => true
  | _, _ => false

/-- What the end waits for after one more code point. -/
def next : Joint → Kind → Joint
  | _, .carriageReturn => carriageReturn
  | _, .lineFeed | _, .control => ended
  | _, .leading => leading
  | _, .onset => onset
  | _, .vowel | _, .syllable false => vowel
  | _, .coda | _, .syllable true => coda
  | picture, .mark => picture
  | picture, .joiner => joined
  | _, .picture _ => picture
  | flag, .flag => loose
  | _, .flag => flag
  | _, _ => loose

end Joint

/-! ## Width -/

/-- Whether a code point takes two columns; unlike in tables, the signs U+2FFC to U+2FFF and U+31EF,
which stand for ways to put ideographs together, do not. -/
def isWide (code : Nat) : Bool :=
  Runs.within Width.wideBounds code && !(0x2ffc ≤ code && code ≤ 0x2fff) && code != 0x31ef

def columnsOf (kind : Kind) (code : Nat) : Nat :=
  match kind with
  | .control | .carriageReturn | .lineFeed | .mark | .joiner => 0
  | .flag | .picture true => 2
  | .picture false => 1
  | _ =>
    if code == 0x2e3a then 3
    else if code == 0x2e3b then 4
    else if isWide code then 2
    else 1

/-- The columns of a cluster that had `columns` of them and goes on with a code point.  A picture is
as wide as the last mark that chooses its form, U+FE0E or U+FE0F; to a flag or a syllable in parts
nothing is added. -/
def widened (first kind : Kind) (code columns : Nat) : Nat :=
  match first with
  | .picture _ => if code == 0xfe0e then 1 else if code == 0xfe0f then 2 else columns
  | .flag | .onset => columns
  | _ => columns + columnsOf kind code

/-- How much a cluster takes: octets in the text, and columns where it is shown. -/
structure Extent where
  octets : Nat
  columns : Nat
  deriving DecidableEq, Repr

/-- The code point that begins a text, and its octets; a stray octet reads as U+FFFD. -/
def codeAt (s : Bytes) : Nat × Nat := (Utf8.first? s).getD (Utf8.replacement, 1)

/-- The extent of a cluster that begins with a code point of kind `first`, goes as far as `sofar`,
and may go on with what follows `skip` octets of a text. -/
def grow (first : Kind) (joint : Joint) (sofar : Extent) : (skip : Nat) → Bytes → Extent
  | _, [] => sofar
  | skip + 1, _ :: rest => grow first joint sofar skip rest
  | 0, b :: rest =>
    let (code, octets) := codeAt (b :: rest)
    let kind := Kind.ofCode code
    if joint.joins kind then
      grow first (joint.next kind) ⟨sofar.octets + octets, widened first kind code sofar.columns⟩
        (octets - 1) rest
    else sofar

def first (s : Bytes) : Extent :=
  let (code, octets) := codeAt s
  let kind := Kind.ofCode code
  grow kind (Joint.loose.next kind) ⟨octets, columnsOf kind code⟩ octets s

end UiCodegen.Cluster
