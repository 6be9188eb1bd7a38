import UiCodegen.Config.Setting
import UiCodegen.Text.Base64

/-!
# Settings of a file

A file is a mapping in YAML.  Unlike a document, it may hold dates and binary data, and a mapping
can take over the pairs of others by the key `<<`: its own pairs hide them, and earlier ones hide
later ones.

The keys of tables are texts, except in lists inside lists, where a key may be any single value.

Aliases make it easy to write a short file with a huge value.  So the nodes that are read are
counted, and a file is refused if nearly all of them are read through aliases.  Aliases inside each
other refer to different anchors unless one of them is inside itself, so as many jumps as there are
anchors are enough.
-/

namespace UiCodegen.Config

namespace Setting

variable (nodes : List (Nat × Node))

open Document.Yaml (Node classify shortTag)

/-! ## Scalars -/

/-- What a scalar without a tag looks like. -/
def ofPlain (s : Bytes) : Setting :=
  match Moment.parse? s with
  | some m => .moment m
  | none =>
    match classify s with
    | .null => .null
    | .bool b => .bool b
    | .int n => .int n
    | .big =>
      match Integer.parseUnsigned? .announced (s.filter (· != 95)) with
      | some n => .int n
      | none => .text s
    | .float literal => .float literal
    | .text => .text s

def ofScalar? (tag s : Bytes) (plain : Bool) : Option Setting :=
  let tag := shortTag tag
  let looks := ofPlain s
  if tag.isEmpty || tag == "!" then some (if plain && s != "<<" then looks else .text s)
  else if tag == "!!null" then match looks with
    | .null => some .null
    | _ => none
  else if tag == "!!bool" then match looks with
    | .bool b => some (.bool b)
    | _ => none
  else if tag == "!!int" then match looks with
    | .int n => some (.int n)
    | _ => none
  else if tag == "!!float" then match looks with
    | .int n =>
      if Int.pow 2 63 ≤ n then none
      else (Decimal.parse? (Bytes.ofInt n)).map fun x => .float (Decimal.general x)
    | .float literal => some (.float literal)
    | _ => none
  else if tag == "!!timestamp" then match looks with
    | .moment m => some (.moment m)
    | _ => none
  else if tag == "!!binary" then (Base64.decode? s).map .text
  else some (.text s)

/-! ## Keys -/

/-- How the keys of a mapping are read. -/
inductive Keys where
  /-- As they are written; a pair whose key is null is left out. -/
  | written
  | resolved
  deriving DecidableEq, Repr

def isMergeKey : Node → Bool
  | .scalar _ tag s plain =>
    s == "<<" && (shortTag tag == "!!merge" || (plain && (tag.isEmpty || tag == "!")))
  | _ => false

/-- Whether a scalar is a text and nothing else. -/
def isText (tag s : Bytes) (plain : Bool) : Bool :=
  if tag.isEmpty || tag == "!" then
    !plain || s == "<<" || (match ofPlain s with | .text _ => true | _ => false)
  else shortTag tag == "!!str" || shortTag tag == "!!merge"

def isTextKey : Node → Bool
  | .scalar _ tag s plain => isText tag s plain
  | .alias _ anchor =>
    match nodes.lookup anchor with
    | some (.scalar _ tag s plain) => isText tag s plain
    | _ => false
  | _ => false

def keysOf (pairs : List (Node × Node)) : Keys :=
  if pairs.all fun (key, _) => isTextKey nodes key then .written else .resolved

/-- Where a value stands. -/
inductive Nesting where
  | plain
  | listed
  /-- In a list inside a list, or somewhere inside one. -/
  | deep
  deriving DecidableEq, Repr

def Nesting.items : Nesting → Nesting
  | plain => listed
  | _ => deep

def Nesting.values : Nesting → Nesting
  | deep => deep
  | _ => plain

/-- A scalar as a key, if the pair counts. -/
def keyOf? (nesting : Nesting) (keys : Keys) (tag s : Bytes) (plain : Bool) :
    Option (Option Setting) := do
  let v ← ofScalar? tag s plain
  match keys with
  | .resolved => return some (if nesting == .deep then v else .text v.shown)
  | .written =>
    match v with
    | .null => return none
    | .text decoded => return some (.text (if shortTag tag == "!!binary" then decoded else s))
    | _ => return some (.text s)

def isSame (a b : Setting) : Bool := a.rank == b.rank && a.shown == b.shown

def putPair (pairs : List (Setting × Setting)) (key v : Setting) : List (Setting × Setting) :=
  pairs.filter (!isSame key ·.1) ++ [(key, v)]

def sameKey : Node → Node → Bool
  | .scalar _ _ s _, .scalar _ _ t _ => s == t
  | .alias _ a, .alias _ b => a == b
  | .sequence .., .sequence .. => true
  | .mapping .., .mapping .. => true
  | _, _ => false

/-- Whether all keys are written differently. -/
def distinct : List Node → Bool
  | [] => true
  | key :: rest => !rest.any (sameKey key) && distinct rest

/-! ## Counting -/

/-- How many nodes have been read. -/
structure Tally where
  total : Nat := 0
  aliased : Nat := 0
  deriving DecidableEq, Repr

/-- Whether too many nodes were read through aliases.  Ninety-nine of a hundred are allowed; beyond
400000 nodes the share falls, down to one of ten at 4000000. -/
def Tally.excessive (t : Tally) : Bool :=
  100 < t.aliased && 1000 < t.total &&
    (if t.total ≤ 400000 then t.total * 99 < t.aliased * 100
    else if 4000000 ≤ t.total then t.total < t.aliased * 10
    else t.total * (356400000 - 89 * (t.total - 400000)) < t.aliased * 360000000)

/-- Reading values, while nodes are counted. -/
abbrev ReadM := StateT Tally Option

def visit (aliased : Bool) : ReadM Unit := do
  modify fun t => { total := t.total + 1, aliased := t.aliased + aliased.toNat }
  if (← get).excessive then failure

/-! ## Values -/

def readKey (aliased : Bool) (nesting : Nesting) (keys : Keys)
    (key : Node) : ReadM (Option Setting) := do
  visit aliased
  match key with
  | .scalar _ tag s plain => keyOf? nesting keys tag s plain
  | .alias _ anchor =>
    match nodes.lookup anchor with
    | some (.scalar _ tag s plain) =>
      visit true
      keyOf? nesting keys tag s plain
    | _ => failure
  | _ => failure

/-- Reads keys once more, before the pairs of other mappings are looked at. -/
def revisit (aliased : Bool) (pairs : List (Node × Node)) :
    ReadM Unit :=
  pairs.forM fun (key, _) => do let _ ← readKey nodes aliased .plain .resolved key

section

variable (nodes : List (Nat × Node))

mutual

/-- The value of a node, following at most so many aliases into each other. -/
def ofNode (jumps : Nat) (aliased : Bool) (nesting : Nesting)
    (node : Node) : ReadM Setting := do
  visit aliased
  match node with
  | .scalar _ tag s plain => ofScalar? tag s plain
  | .sequence _ items => return .list (← ofItems jumps aliased nesting.items items)
  | .mapping _ pairs =>
    return .table (← ofMapping jumps aliased nesting (keysOf nodes pairs) false [] pairs)
  | .alias _ anchor =>
    match jumps, nodes.lookup anchor with
    | jumps + 1, some target => ofNode jumps true nesting target
    | _, _ => failure
termination_by (jumps, sizeOf node, 0)

def ofItems (jumps : Nat) (aliased : Bool) (nesting : Nesting)
    (items : List Node) : ReadM (List Setting) :=
  match items with
  | [] => return []
  | item :: rest => do
    let v ← ofNode jumps aliased nesting item
    return v :: (← ofItems jumps aliased nesting rest)
termination_by (jumps, sizeOf items, 0)

/-- The pairs of a mapping, and those it takes over, put onto the pairs read before.  If they are
lent to another mapping, what is already there stays. -/
def ofMapping (jumps : Nat) (aliased : Bool) (nesting : Nesting)
    (keys : Keys) (lent : Bool) (done : List (Setting × Setting)) (pairs : List (Node × Node)) :
    ReadM (List (Setting × Setting)) := do
  if !distinct (pairs.map (·.1)) then failure
  let done ← ofPairs jumps aliased nesting keys lent done pairs
  if pairs.any fun (key, _) => isMergeKey key then
    if !lent then revisit nodes aliased pairs
    takeOver jumps aliased nesting keys done pairs
  else return done
termination_by (jumps, sizeOf pairs, 1)

/-- The pairs of a mapping that are its own, put onto the pairs read before. -/
def ofPairs (jumps : Nat) (aliased : Bool) (nesting : Nesting)
    (keys : Keys) (lent : Bool) (done : List (Setting × Setting)) (pairs : List (Node × Node)) :
    ReadM (List (Setting × Setting)) :=
  match pairs with
  | [] => return done
  | (key, value) :: rest => do
    if isMergeKey key then ofPairs jumps aliased nesting keys lent done rest
    else
      match ← readKey nodes aliased nesting keys key with
      | none => ofPairs jumps aliased nesting keys lent done rest
      | some name =>
        if lent && done.any (isSame name ·.1) then
          ofPairs jumps aliased nesting keys lent done rest
        else
          let v ← ofNode jumps aliased nesting.values value
          ofPairs jumps aliased nesting keys lent (putPair done name v) rest
termination_by (jumps, sizeOf pairs, 0)

/-- Pairs, and those of the mappings that a mapping refers to by the key `<<`. -/
def takeOver (jumps : Nat) (aliased : Bool) (nesting : Nesting)
    (keys : Keys) (done : List (Setting × Setting)) (pairs : List (Node × Node)) :
    ReadM (List (Setting × Setting)) :=
  match pairs with
  | [] => return done
  | (key, value) :: rest =>
    if isMergeKey key then
      match value with
      | .sequence _ items => lendAll jumps aliased nesting keys done items
      | value => lend jumps aliased nesting keys done value
    else takeOver jumps aliased nesting keys done rest
termination_by (jumps, sizeOf pairs, 0)

/-- Pairs, and those of a mapping or of an alias of one. -/
def lend (jumps : Nat) (aliased : Bool) (nesting : Nesting)
    (keys : Keys) (done : List (Setting × Setting)) (node : Node) :
    ReadM (List (Setting × Setting)) := do
  visit aliased
  match node with
  | .mapping _ pairs => ofMapping jumps aliased nesting keys true done pairs
  | .alias _ anchor =>
    match jumps, nodes.lookup anchor with
    | jumps + 1, some (.mapping _ pairs) => do
      visit true
      ofMapping jumps true nesting keys true done pairs
    | _, _ => failure
  | _ => failure
termination_by (jumps, sizeOf node, 0)

/-- Pairs, and those of each of some mappings. -/
def lendAll (jumps : Nat) (aliased : Bool) (nesting : Nesting)
    (keys : Keys) (done : List (Setting × Setting)) (items : List Node) :
    ReadM (List (Setting × Setting)) :=
  match items with
  | [] => return done
  | item :: rest => do
    let done ← lend jumps aliased nesting keys done item
    lendAll jumps aliased nesting keys done rest
termination_by (jumps, sizeOf items, 0)

end

end

end Setting

def Source.ofRoot (nodes : List (Nat × Document.Yaml.Node)) (root : Document.Yaml.Node) :
    Setting.ReadM Source := do
  -- The document counts as a node too.
  Setting.visit false
  match root with
  | .mapping _ pairs => do
    Setting.visit false
    let settings ← Setting.ofMapping nodes (nodes.length + 1) false .plain .written false [] pairs
    return settings.map fun (key, v) => (key.shown, v)
  | root => do
    match ← Setting.ofNode nodes (nodes.length + 1) false .plain root with
    | .null => return []
    | _ => failure

/-- The settings of a text in YAML, which has to be a mapping or empty. -/
def Source.ofYaml? (s : Bytes) : Option Source :=
  match Document.Yaml.readRoot s with
  | .error _ => none
  | .ok (none, _) => some []
  | .ok (some root, nodes) => (Source.ofRoot nodes root).run' {}

end UiCodegen.Config
