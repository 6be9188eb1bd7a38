import UiCodegen.Document.Fault
import UiCodegen.Document.Value
import UiCodegen.Document.Yaml.Node
import UiCodegen.Text.Decimal
import UiCodegen.Text.Integer

/-!
# Reading YAML documents

The value of a YAML document.  A plain scalar without a tag is what it looks like: nothing, a truth
value, an integer, a fraction or a text; a tag makes it one of these, or a text.  Aliases are
replaced by what they refer to.  An alias may stand inside the node it refers to, and then the value
has no end.
-/

namespace UiCodegen.Document.Yaml

/-! ## Scalars -/

/-- What a plain scalar looks like. -/
inductive Plain where
  | null
  | bool (b : Bool)
  | int (n : Int)
  /-- An integer above the range of signed 64-bit words. -/
  | big
  /-- A fraction; the text is how it is written in a document. -/
  | float (literal : Bytes)
  | text
  deriving DecidableEq, Repr

def words : List (Bytes × Plain) :=
  [("", .null), ("~", .null), ("null", .null), ("Null", .null), ("NULL", .null),
   ("true", .bool true), ("True", .bool true), ("TRUE", .bool true),
   ("false", .bool false), ("False", .bool false), ("FALSE", .bool false),
   (".nan", .float "NaN"), (".NaN", .float "NaN"), (".NAN", .float "NaN"),
   (".inf", .float "+Inf"), (".Inf", .float "+Inf"), (".INF", .float "+Inf"),
   ("+.inf", .float "+Inf"), ("+.Inf", .float "+Inf"), ("+.INF", .float "+Inf"),
   ("-.inf", .float "-Inf"), ("-.Inf", .float "-Inf"), ("-.INF", .float "-Inf")]

def integerOf? (base : Integer.Base) (digits : Bytes) : Option Plain :=
  match Integer.parse? base digits with
  | some n => some (.int n)
  | none => (Integer.parseUnsigned? base digits).map fun _ => .big

def markedInteger? (s : Bytes) : Option Plain :=
  let read (mark : Bytes) (base : Nat) : Option Plain :=
    match Bytes.dropHead? s mark with
    | some digits => integerOf? (.fixed base) digits
    | none =>
      (Bytes.dropHead? s ("-" ++ mark)).bind fun digits =>
        (Integer.parse? (.fixed base) ("-" ++ digits)).map .int
  (read "0b" 2).orElse fun _ => read "0o" 8

/-- A number that begins with a digit or a sign; `_` between digits has been dropped. -/
def number? (s : Bytes) : Option Plain :=
  match integerOf? .announced s with
  | some n => some n
  | none =>
    match (Decimal.parse? s) with
    | some x => some (.float (Decimal.general x))
    | none => markedInteger? s

def classify (s : Bytes) : Plain :=
  match words.lookup s with
  | some plain => plain
  | none =>
    match s with
    | [] => .null
    | b :: _ =>
      if b == 46 then
        match Decimal.parse? (s.filter (· != 95)) with
        | some x => if s.contains 95 && !Integer.underscoresBetweenDigits s then .text else .float
            (Decimal.general x)
        | none => .text
      else if b == 43 || b == 45 || Bytes.isDigit b then (number? (s.filter (· != 95))).getD .text
      else .text

def boolOf? (s : Bytes) : Option Bool :=
  if (["1", "t", "T", "TRUE", "true", "True"].map Bytes.ofString).contains s then some true
  else if (["0", "f", "F", "FALSE", "false", "False"].map Bytes.ofString).contains s then some false
  else none

def shortTag (tag : Bytes) : Bytes :=
  match Bytes.dropHead? tag "tag:yaml.org,2002:" with
  | some rest => "!!" ++ rest
  | none => tag

/-- The value of a scalar without a tag of its own. -/
def untagged (text : Bytes) : Except Bytes Value :=
  match classify text with
  | .null => .ok .null
  | .bool b => .ok (.bool b)
  | .int n => .ok (.num (Bytes.ofInt n))
  | .big => .error "invalid integer"
  | .float literal => .ok (.num literal)
  | .text => .ok (.str text)

def tagged (tag text : Bytes) : Except Bytes Value :=
  if tag == "!!null" then .ok .null
  else if tag == "!!bool" then
    match boolOf? text with
    | some b => .ok (.bool b)
    | none => .error "invalid boolean"
  else if tag == "!!int" then
    match classify text with
    | .int n => .ok (.num (Bytes.ofInt n))
    | _ => .error "invalid integer"
  else if tag == "!!float" then
    match classify text with
    | .int n =>
      match Decimal.parse? (Bytes.ofInt n) with
      | some x => .ok (.num (Decimal.general x))
      | none => .error "invalid float"
    | .float literal => .ok (.num literal)
    | _ => .error "invalid float"
  else .ok (.str text)

def scalarValue (tag text : Bytes) (plain : Bool) : Except Bytes Value :=
  if tag.isEmpty || tag == "!" then
    if plain && text != "<<" then untagged text else .ok (.str text)
  else tagged (shortTag tag) text

/-! ## Trees -/

/-- Reads one thing after the other, up to the first fault.  Reading may come to no end. -/
def readAll {α β : Type} (read : α → Option (Except Fault β)) :
    List α → Option (Except Fault (List β))
  | [] => some (.ok [])
  | x :: xs => do
    match ← read x with
    | .error fault => return .error fault
    | .ok v => return (← readAll read xs).map (v :: ·)

section

variable (nodes : List (Nat × Node)) (read : Pointer → Node → Option (Except Fault Value))
  (at_ : Pointer)

/-- A pair of a mapping, whose key has to be a scalar. -/
def pairWith : Node × Node → Option (Except Fault (Bytes × Value))
  | (.scalar _ _ key _, value) => (read (at_.key key) value).map (·.map (key, ·))
  | (key, _) =>
      some (.error { pointer := at_, cause := .badNode key.line "mapping key is not a scalar" })

/-- The value of a node of which the parts are read in a given way. -/
def valueWith : Node → Option (Except Fault Value)
  | .scalar line tag text plain =>
    match scalarValue tag text plain with
    | .ok v => some (.ok v)
    | .error problem => some (.error { pointer := at_, cause := .badNode line problem })
  | .sequence _ items => (readAll (fun (item, i) => read (at_.index i) item) items.zipIdx).map
      (·.map .arr)
  | .mapping _ pairs => (readAll (pairWith read at_) pairs).map (·.map .obj)
  | .alias _ anchor =>
    match nodes.lookup anchor with
    | some target => read at_ target
    | none => some (.error { pointer := at_, cause := .endlessAlias })

end

theorem readAll_cons_eq_some_iff {α β : Type} {read : α → Option (Except Fault β)}
    {x : α} {xs : List α} {r : Except Fault (List β)} :
    readAll read (x :: xs) = some r ↔
      (∃ fault, read x = some (.error fault) ∧ r = .error fault) ∨
      ∃ v vs, read x = some (.ok v) ∧ readAll read xs = some vs ∧ r = vs.map (v :: ·) := by
  rw [readAll]
  match read x with
  | none => simp
  | some (.error fault) => simp [eq_comm]
  | some (.ok v) => simp [Option.bind_eq_some_iff, @eq_comm _ r]

theorem readAll_mono {α β : Type} {read read' : α → Option (Except Fault β)}
    (h : ∀ x r, read x = some r → read' x = some r) {xs : List α} {r : Except Fault (List β)}
    (hr : readAll read xs = some r) : readAll read' xs = some r := by
  induction xs generalizing r with
  | nil => exact hr
  | cons x xs ih =>
    obtain ⟨fault, hfault, hr⟩ | ⟨v, vs, hv, hvs, hr⟩ := readAll_cons_eq_some_iff.1 hr
    · exact readAll_cons_eq_some_iff.2 (.inl ⟨fault, h x _ hfault, hr⟩)
    · exact readAll_cons_eq_some_iff.2 (.inr ⟨v, vs, h x _ hv, ih hvs, hr⟩)

/-- What is read with a function that ends more often ends in the same way. -/
theorem valueWith_mono {nodes : List (Nat × Node)}
    {read read' : Pointer → Node → Option (Except Fault Value)}
    (h : ∀ at_ node r, read at_ node = some r → read' at_ node = some r)
    {at_ : Pointer} {node : Node}
    {r : Except Fault Value} (hr : valueWith nodes read at_ node = some r) :
    valueWith nodes read' at_ node = some r := by
  match node with
  | .scalar .. => exact hr
  | .sequence _ items =>
    obtain ⟨vs, hvs, heq⟩ := Option.map_eq_some_iff.1 hr
    exact Option.map_eq_some_iff.2 ⟨vs, readAll_mono (fun x r => h _ x.1 r) hvs, heq⟩
  | .mapping _ pairs =>
    have hpair : ∀ pair r, pairWith read at_ pair = some r → pairWith read' at_ pair = some r := by
      intro (key, value) r hr
      cases key with
      | scalar =>
        obtain ⟨v, hv, heq⟩ := Option.map_eq_some_iff.1 hr
        exact Option.map_eq_some_iff.2 ⟨v, h _ _ _ hv, heq⟩
      | _ => exact hr
    obtain ⟨vs, hvs, heq⟩ := Option.map_eq_some_iff.1 hr
    exact Option.map_eq_some_iff.2 ⟨vs, readAll_mono hpair hvs, heq⟩
  | .alias _ anchor =>
    rw [valueWith] at hr ⊢
    cases htarget : nodes.lookup anchor with
    | none => simpa only [htarget] using hr
    | some target =>
      simp only [htarget] at hr ⊢
      exact h at_ target r hr

section

variable (nodes : List (Nat × Node))

/-- The value of a node.  The walk follows every alias, so inside a node that an alias in it refers
to it comes to no end. -/
def valueOf (at_ : Pointer) (node : Node) : Option (Except Fault Value) :=
  valueWith nodes (by apply valueOf) at_ node
partial_fixpoint monotonicity by
  intro read read' hle at_ node
  have hstep : ∀ at_ node r, read at_ node = some r → read' at_ node = some r := by
    intro at_ node r hr
    have hle := hle at_ node
    rw [hr] at hle
    generalize read' at_ node = found at hle ⊢
    cases hle
    rfl
  dsimp only
  generalize hr : valueWith nodes read at_ node = r
  cases r with
  | none => exact .bot
  | some r =>
    rw [valueWith_mono hstep hr]
    exact .refl

end

/-! ## Documents -/

def readRoot (s : Bytes) : Except Stop (Option Node × List (Nat × Node)) :=
  Node.read (Tokens.scan (Input.ofBytes s))

def decode (s : Bytes) : Except Fault Value :=
  match readRoot s with
  | .error stop => .error { cause := .badLayout stop.line stop.problem }
  | .ok (none, _) => .error { cause := .emptyDocument }
  | .ok (some root, nodes) => (valueOf nodes .root root).getD (.error { cause := .endlessAlias })

end UiCodegen.Document.Yaml
