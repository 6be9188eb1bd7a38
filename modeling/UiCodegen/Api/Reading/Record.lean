import UiCodegen.Api.Reading.Text

/-!
# Records and lists of a description

A record is read key by key onto what is already known of it, and a list element by element onto the
list that stood there before, so what is repeated later in a description is put on top of what came
earlier.

A reader takes a value from the front of a text and comes back with a shorter one (`Front.shorter`).
It is told that fewer than `n` octets of the text are left, which lets readers of nested values be
built from readers of smaller ones.
-/

namespace UiCodegen.Api.Reading

/-- Reads a value from the front of a text of which fewer than `n` octets are left. -/
abbrev Reader (n : Nat) (α : Type) := (w : Window) → w.left < n → Option (Front α w.left)

/-- Applies a function to what is read. -/
def Reader.map {n : Nat} {α β : Type} (f : α → β) (read : Reader n α) : Reader n β :=
  fun w hw => (read w hw).map (·.map f)

/-- The word `null` behind its first letter, standing for `value`. -/
def nullRest? {n : Nat} {α : Type} (value : α) (w : Window) (h : w.left < n) : Option (Front α n) :=
  (word? w.left [] w w.fits_nil "ull").map fun cut => ⟨value, cut.rest, cut.rest_lt h⟩

/-! ## Readers -/

/-- A text; `null` keeps `old`. -/
def text {n : Nat} (layer : Layer) (old : Bytes) : Reader n Bytes := fun w _ => do
  let ⟨c, rest, h⟩ ← w.sign?
  if c == 34 then (readText layer rest.left [] rest rest.left_refl).map (·.extend (Nat.le_of_lt h))
  else if c == 110 then nullRest? old rest h
  else none

/-- A value as it is written. -/
def source {n : Nat} (layer : Layer) (depth : Nat) : Reader n Bytes := fun w _ => do
  let ⟨w', h⟩ := w.skipSpace
  let value ← written? layer depth w'
  some ((value.map (·.1)).extend h)

/-- The elements of a list that is not empty.  `old` are the elements that stood in their places
before, and `blank` is what an element is read onto if there was none. -/
def elements {n m : Nat} {α : Type} (element : α → Reader n α) (blank : α) (old reversed : List α)
    (w : Window) (hw : w.left < n) (hm : w.left ≤ m) : Option (Front (List α) m) :=
  match element (old.headD blank) w hw with
  | none => none
  | some ⟨v, rest, h₁⟩ =>
    match rest.sign? with
    | none => none
    | some ⟨c, rest, h₂⟩ =>
      have h := Window.lt_trans h₂ h₁
      if c == 93 then some ⟨(v :: reversed).reverse, rest, Window.lt_of_lt_of_le h hm⟩
      else if c == 44 then
        elements element blank old.tail (v :: reversed) rest (Window.lt_of_lt_of_lt h hw)
          (Window.le_of_lt h hm)
      else none
termination_by w.left
decreasing_by exact h

/-- A list; `none` stands for `null`. -/
def listOrNull {n : Nat} {α : Type} (element : α → Reader n α) (blank : α) (old : List α) :
    Reader n (Option (List α)) := fun w hw => do
  let ⟨c, rest, h⟩ ← w.sign?
  if c == 110 then nullRest? none rest h
  else if c == 91 then
    let ⟨rest, h'⟩ := rest.skipSpace
    let ⟨c, behind, h''⟩ ← rest.next?
    if c == 93 then some ⟨some [], behind, by omega⟩
    else
      let items ← elements element blank old [] rest (by omega) rest.left_refl
      some ((items.map some).extend (by omega))
  else none

/-- A list; `null` is the empty one. -/
def list {n : Nat} {α : Type} (element : α → Reader n α) (blank : α) (old : List α) :
    Reader n (List α) :=
  (listOrNull element blank old).map (·.getD [])

/-- The fields of a kind of record in the alphabetical order of their names, each with what reads it
onto a record. -/
abbrev Fields (n : Nat) (ρ : Type) := List (Bytes × (ρ → Reader n ρ))

/-- What reads the field with a name; without a name the value is passed over. -/
def Fields.reader {n : Nat} {ρ : Type} (fields : Fields n ρ) (layer : Layer) (depth : Nat)
    (name : Option Bytes) (record : ρ) : Reader n ρ :=
  match name.bind (fields.lookup ·) with
  | some field => field record
  | none => fun w _ => (written? layer depth w).map (·.map fun _ => record)

/-- The pairs of a record that is not empty.  The mark is put in front of each of them. -/
def pairs {n m : Nat} {ρ : Type} (layer : Layer) (depth : Nat) (fields : Fields n ρ) (record : ρ)
    (w : Window) (hw : w.left < n) (hm : w.left ≤ m) : Option (Front ρ m) := do
  let ⟨c, rest, h₁⟩ ← w.mark.sign?
  if c != 34 then none
  let ⟨name, rest, h₂⟩ ← readKey layer (fields.map (·.1)) rest.left [] 0 rest rest.left_refl
  let ⟨c, rest, h₃⟩ ← rest.sign?
  if c != 58 then none
  have h₁ : _ < w.left := h₁
  let ⟨record, rest, h₄⟩ ← fields.reader layer depth name record rest (by omega)
  let ⟨c, rest, h₅⟩ ← rest.sign?
  if c == 125 then some ⟨record, rest, by omega⟩
  else if c == 44 then pairs layer depth fields record rest (by omega) (by omega)
  else none
termination_by w.left

/-- A record, read onto `old`; `null` keeps it.  `depth` counts the containers that are open inside
it. -/
def recordWithin {n : Nat} {ρ : Type} (layer : Layer) (depth : Nat) (fields : Fields n ρ) (old : ρ)
    (w : Window) (hw : w.left ≤ n) : Option (Front ρ w.left) := do
  let ⟨c, rest, h⟩ ← w.sign?
  if c == 110 then nullRest? old rest h
  else if c == 123 then
    let ⟨rest, h'⟩ := rest.skipSpace
    let ⟨c, behind, h''⟩ ← rest.next?
    if c == 125 then some ⟨old, behind, by omega⟩
    else pairs layer depth fields old rest (by omega) (by omega)
  else none

/-- A record that is read field by field. -/
def record {n : Nat} {ρ : Type} (layer : Layer) (depth : Nat) (fields : Fields n ρ) (old : ρ) :
    Reader n ρ :=
  fun w hw => recordWithin layer depth fields old w (Nat.le_of_lt hw)

end UiCodegen.Api.Reading
