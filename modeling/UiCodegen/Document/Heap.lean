import UiCodegen.Document.Value

/-!
# Objects in memory

Elsewhere a document is a value.  While it is put together, its arrays and objects are cells of a
heap and are held by their places, so that a change through one holder is seen through every other.
An object is a list of pairs with an overlay, which leads from a key to its last pair and which
lookups go through.
-/

namespace UiCodegen

namespace Heap

/-- A value as it is held: arrays and objects by the place of their cell, which an absent object
lacks. -/
inductive Ref where
  | null
  | bool (b : Bool)
  | num (literal : Bytes)
  | str (text : Bytes)
  | cell (place : Option Nat)
  deriving DecidableEq, Repr, Inhabited

/-- The pairs of an object in document order, with an overlay for lookups. -/
structure Object where
  pairs : List (Bytes × Ref) := []
  /-- Each key with the place of its last pair.  The entry that holds is the first one; the zero
  value has no overlay, and none of its keys is bound. -/
  overlay : Option (List (Bytes × Nat)) := none
  deriving DecidableEq, Repr

namespace Object

variable (o : Object)

/-- A new object. -/
def empty : Object := { overlay := some [] }

/-- The place of the last pair with `key`, by the overlay. -/
def place? (key : Bytes) : Option Nat := (o.overlay.getD []).lookup key

/-- The value of the pair that the overlay leads to. -/
def get? (key : Bytes) : Option Ref :=
  (o.place? key).bind fun i => o.pairs[i]?.map Prod.snd

/-- Adds a pair at the end; earlier pairs with the key stay. -/
def append (key : Bytes) (v : Ref) : Object :=
  { pairs := o.pairs ++ [(key, v)]
    overlay := some ((key, o.pairs.length) :: o.overlay.getD []) }

/-- Replaces the value of the pair that the overlay leads to, or adds a pair at the end. -/
def set (key : Bytes) (v : Ref) : Object :=
  match o.place? key with
  | some i => { o with pairs := o.pairs.modify i fun pair => (pair.1, v) }
  | none => o.append key v

/-- The bound keys, each once and in the order of their first pairs. -/
def keys : List Bytes := Fields.distinct (o.pairs.map Prod.fst)

end Object

/-- What stands at a place. -/
inductive Cell where
  | arr (items : List Ref)
  | obj (o : Object)
  deriving DecidableEq, Repr

namespace Cell

/-- What a cell holds. -/
def refs : Cell → List Ref
  | arr items => items
  | obj o => o.pairs.map Prod.snd

/-- A cell with the same keys and the same overlay that holds other values. -/
def renew : Cell → List Ref → Cell
  | arr _, refs => arr refs
  | obj o, refs =>
    obj { pairs := (o.pairs.map Prod.fst).zip refs, overlay := some (o.overlay.getD []) }

/-- The document of a cell, given the documents of what it holds. -/
def draft : Cell → List Draft → Draft
  | arr _, items => .arr items
  | obj o, values => .obj ((o.pairs.map Prod.fst).zip values)

end Cell

end Heap

/-- The cells that were made so far, by their places. -/
abbrev Heap := List Heap.Cell

namespace Heap

/-- Makes a cell. -/
def make (cell : Cell) (h : Heap) : Ref × Heap := (.cell (some h.length), h ++ [cell])

/-- Changes the object at a place; there has to be one. -/
def change (place : Nat) (f : Object → Object) (h : Heap) : Option (Ref × Heap) :=
  match h[place]? with
  | some (.obj o) => some (.cell (some place), h.set place (.obj (f o)))
  | _ => none

/-- The document below a value, if it has at most `levels` levels of arrays and objects. -/
def read (h : Heap) : (levels : Nat) → Ref → Option Draft
  | _, .null => some .null
  | _, .bool b => some (.bool b)
  | _, .num literal => some (.num literal)
  | _, .str text => some (.str text)
  | _, .cell none => some .absent
  | 0, .cell (some _) => none
  | levels + 1, .cell (some place) => do
    let cell ← h[place]?
    return cell.draft (← cell.refs.mapM (read h levels))

/-- The object that is held. -/
def object? (h : Heap) : Ref → Option Object
  | .cell (some place) =>
    match h[place]? with
    | some (.obj o) => some o
    | _ => none
  | _ => none

/-- What is held at the end of a path through objects; absent, if the path leaves them. -/
def descend (h : Heap) (v : Ref) : List Bytes → Ref
  | [] => if (h.object? v).isSome then v else .cell none
  | key :: path => descend h (((h.object? v).bind (·.get? key)).getD .null) path

/-! ## Keeping decoded documents -/

mutual

/-- Makes cells for a decoded document. -/
def keep : Value → Heap → Ref × Heap
  | .null, h => (.null, h)
  | .bool b, h => (.bool b, h)
  | .num literal, h => (.num literal, h)
  | .str text, h => (.str text, h)
  | .arr items, h =>
    let (refs, h) := keepAll items h
    make (.arr refs) h
  | .obj fields, h =>
    let (o, h) := keepFields .empty fields h
    make (.obj o) h

/-- Makes cells for the items of an array. -/
def keepAll : List Value → Heap → List Ref × Heap
  | [], h => ([], h)
  | v :: vs, h =>
    let (w, h) := keep v h
    let (ws, h) := keepAll vs h
    (w :: ws, h)

/-- Adds decoded pairs to an object, one by one. -/
def keepFields (o : Object) : Fields → Heap → Object × Heap
  | [], h => (o, h)
  | (key, v) :: rest, h =>
    let (w, h) := keep v h
    keepFields (o.append key w) rest h

end

/-! ## Copies -/

/-- Copies of values, one after the other. -/
def copyAll (copy : Ref → Heap → Option (Ref × Heap)) : List Ref → Heap → Option (List Ref × Heap)
  | [], h => some ([], h)
  | v :: vs, h => do
    let (w, h) ← copy v h
    let (ws, h) ← copyAll copy vs h
    return (w :: ws, h)

/-- A copy of a value: an array or an object gets a cell of its own, for copies of what it holds. -/
def cloneWith (copy : Ref → Heap → Option (Ref × Heap)) : Ref → Heap → Option (Ref × Heap)
  | .cell (some place), h => do
    let cell ← h[place]?
    let (refs, h) ← copyAll copy cell.refs h
    return make (cell.renew refs) h
  | v, h => some (v, h)

section

variable {copy copy' : Ref → Heap → Option (Ref × Heap)}

theorem copyAll_mono (hcopy : ∀ v h r, copy v h = some r → copy' v h = some r)
    {vs : List Ref} {h : Heap}
    {r : List Ref × Heap} (hr : copyAll copy vs h = some r) : copyAll copy' vs h = some r := by
  induction vs generalizing h r with
  | nil => exact hr
  | cons v vs ih =>
    simp only [copyAll, bind, pure, Option.bind_eq_some_iff] at hr ⊢
    obtain ⟨one, hone, rest, hrest, heq⟩ := hr
    exact ⟨one, hcopy v h one hone, rest, ih hrest, heq⟩

/-- With copies that end more often, a value has the same copy. -/
theorem cloneWith_mono (hcopy : ∀ v h r, copy v h = some r → copy' v h = some r)
    {v : Ref} {h : Heap}
    {r : Ref × Heap} (hr : cloneWith copy v h = some r) : cloneWith copy' v h = some r := by
  rw [cloneWith.eq_def] at hr ⊢
  split at hr
  · simp only [bind, pure, Option.bind_eq_some_iff] at hr ⊢
    obtain ⟨cell, hcell, refs, hrefs, heq⟩ := hr
    exact ⟨cell, hcell, refs, copyAll_mono hcopy hrefs, heq⟩
  · exact hr

end

/-- A copy of all parts.  A value that holds itself has none: copying it does not end. -/
def clone (v : Ref) (h : Heap) : Option (Ref × Heap) :=
  cloneWith (by apply clone) v h
partial_fixpoint monotonicity by
  intro copy copy' hle v h
  have hstep : ∀ v h r, copy v h = some r → copy' v h = some r := by
    intro v h r hr
    have hle := hle v h
    rw [hr] at hle
    generalize copy' v h = found at hle ⊢
    cases hle
    rfl
  dsimp only
  generalize hr : cloneWith copy v h = r
  cases r with
  | none => exact .bot
  | some r =>
    rw [cloneWith_mono hstep hr]
    exact .refl

/-! ## Runs -/

/-- What can be done to objects: making one, keeping a decoded document, adding and setting a pair
of the object at a place, and copying. -/
inductive Step where
  | new
  | zero
  | decode (v : Value)
  | append (place : Nat) (key : Bytes) (v : Ref)
  | set (place : Nat) (key : Bytes) (v : Ref)
  | clone (v : Ref)

namespace Step

/-- The value that a step makes or changes, and the heap behind it. -/
def exec : Step → Heap → Option (Ref × Heap)
  | new, h => make (.obj .empty) h
  | zero, h => make (.obj {}) h
  | decode v, h => keep v h
  | append place key v, h => change place (·.append key v) h
  | set place key v, h => change place (·.set key v) h
  | clone v, h => Heap.clone v h

/-- The place whose object a step changes. -/
def changes? : Step → Option Nat
  | append place .. | set place .. => some place
  | _ => none

end Step

/-- The heap after some steps. -/
def run (h : Heap) (steps : List Step) : Option Heap :=
  steps.foldlM (fun h s => (s.exec h).map Prod.snd) h

end Heap

end UiCodegen
