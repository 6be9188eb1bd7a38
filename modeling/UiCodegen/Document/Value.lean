import UiCodegen.Bytes

/-!
# Document values

A UI document is a tree of values.  An object keeps every pair in document order, duplicates
included, while looking a key up yields its last binding; iteration and lookup therefore see
different things, and both are used.  Numbers keep their literal.
-/

namespace UiCodegen

/-- A value of a document. -/
inductive Value where
  | null
  | bool (b : Bool)
  | num (literal : Bytes)
  | str (text : Bytes)
  | arr (items : List Value)
  | obj (pairs : List (Bytes × Value))
  deriving Repr, Inhabited

/-- The pairs of an object in document order, duplicates included. -/
abbrev Fields := List (Bytes × Value)

namespace Value

/-! ## Equality -/

mutual

/-- Structural equality; the pairs of objects are compared in order. -/
def beq : Value → Value → Bool
  | .null, .null => true
  | .bool a, .bool b => a == b
  | .num a, .num b => a == b
  | .str a, .str b => a == b
  | .arr a, .arr b => beqItems a b
  | .obj a, .obj b => beqFields a b
  | _, _ => false

def beqItems : List Value → List Value → Bool
  | [], [] => true
  | a :: as, b :: bs => a.beq b && beqItems as bs
  | _, _ => false

def beqFields : List (Bytes × Value) → List (Bytes × Value) → Bool
  | [], [] => true
  | (k, a) :: as, (l, b) :: bs => k == l && a.beq b && beqFields as bs
  | _, _ => false

end

mutual

/-- Structural equality decides equality. -/
theorem beq_iff : ∀ a b : Value, a.beq b = true ↔ a = b
  | .null, b => by cases b <;> simp [beq]
  | .bool _, b => by cases b <;> simp [beq]
  | .num _, b => by cases b <;> simp [beq]
  | .str _, b => by cases b <;> simp [beq]
  | .arr a, .arr b => by simp [beq, beqItems_iff a b]
  | .obj a, .obj b => by simp [beq, beqFields_iff a b]
  | .arr _, .null => by simp [beq]
  | .arr _, .bool _ => by simp [beq]
  | .arr _, .num _ => by simp [beq]
  | .arr _, .str _ => by simp [beq]
  | .arr _, .obj _ => by simp [beq]
  | .obj _, .null => by simp [beq]
  | .obj _, .bool _ => by simp [beq]
  | .obj _, .num _ => by simp [beq]
  | .obj _, .str _ => by simp [beq]
  | .obj _, .arr _ => by simp [beq]

theorem beqItems_iff : ∀ a b : List Value, beqItems a b = true ↔ a = b
  | [], [] => by simp [beqItems]
  | a :: as, b :: bs => by simp [beqItems, beq_iff a b, beqItems_iff as bs]
  | [], _ :: _ => by simp [beqItems]
  | _ :: _, [] => by simp [beqItems]

theorem beqFields_iff : ∀ a b : List (Bytes × Value), beqFields a b = true ↔ a = b
  | [], [] => by simp [beqFields]
  | (k, a) :: as, (l, b) :: bs => by
    simp [beqFields, beq_iff a b, beqFields_iff as bs, and_assoc]
  | [], _ :: _ => by simp [beqFields]
  | _ :: _, [] => by simp [beqFields]

end

instance : DecidableEq Value := fun a b => decidable_of_iff _ (beq_iff a b)

def typeName : Value → Bytes
  | .null => "null"
  | .bool _ => "boolean"
  | .num _ => "number"
  | .str _ => "string"
  | .arr _ => "array"
  | .obj _ => "object"

def fields? : Value → Option Fields
  | .obj pairs => some pairs
  | _ => none

end Value

namespace Fields

variable (fields : Fields)

/-- The last value bound to `key`. -/
def get? (key : Bytes) : Option Value :=
  fields.foldl (fun found (k, v) => if k == key then some v else found) none

theorem mem_of_get? {fields : Fields} {key : Bytes} {v : Value} (h : fields.get? key = some v) :
    ∃ k, (k, v) ∈ fields := by
  have found : ∀ (fields : Fields) (acc : Option Value),
      fields.foldl (fun found (k, v) => if k == key then some v else found) acc = some v →
      acc = some v ∨ ∃ k, (k, v) ∈ fields := by
    intro fields
    induction fields with
    | nil => intro acc h; exact .inl h
    | cons pair rest ih =>
      intro acc h
      rcases ih _ h with step | ⟨k, mem⟩
      · simp only at step
        split at step
        · cases step
          exact .inr ⟨pair.1, by simp⟩
        · exact .inl step
      · exact .inr ⟨k, List.mem_cons_of_mem _ mem⟩
  rcases found fields none h with none_eq | mem
  · cases none_eq
  · exact mem

theorem sizeOf_get?_lt {fields : Fields} {key : Bytes} {v : Value} (h : fields.get? key = some v) :
    sizeOf v < sizeOf fields := by
  obtain ⟨k, mem⟩ := mem_of_get? h
  have := List.sizeOf_lt_of_mem mem
  simp only [Prod.mk.sizeOf_spec] at this
  omega

/-- The pairs of an object found under a key are smaller than the object that holds it. -/
theorem sizeOf_lt_of_get?_obj {fields inner : Fields} {key : Bytes}
    (h : fields.get? key = some (.obj inner)) : sizeOf inner < sizeOf fields := by
  have := sizeOf_get?_lt h
  simp only [Value.obj.sizeOf_spec] at this
  omega

/-- The items of an array found under a key are smaller than the object that holds it. -/
theorem sizeOf_lt_of_get?_arr {fields : Fields} {items : List Value} {key : Bytes}
    (h : fields.get? key = some (.arr items)) : sizeOf items < sizeOf fields := by
  have := sizeOf_get?_lt h
  simp only [Value.arr.sizeOf_spec] at this
  omega

/-- Whether `key` is bound. -/
def has (key : Bytes) : Bool := (fields.get? key).isSome

/-- The text bound to `key`, if its last value is a string. -/
def getString? (key : Bytes) : Option Bytes :=
  match fields.get? key with
  | some (.str text) => some text
  | _ => none

/-- Adds a pair at the end; earlier bindings of the key stay. -/
def append (key : Bytes) (v : Value) : Fields := fields ++ [(key, v)]

/-- The keys of a list, each once and in the order in which they appear first. -/
def distinct (keys : List Bytes) : List Bytes :=
  (keys.foldl (fun seen key => if seen.contains key then seen else key :: seen) []).reverse

/-- The bound keys, each once and in the order of their first pairs. -/
def keys (fields : Fields) : List Bytes := distinct (fields.map Prod.fst)

/-- Why a list of values is no list of alternating keys and values. -/
inductive PairingFault where
  | oddCount
  | keyNotString
  deriving DecidableEq, Repr

def PairingFault.message : PairingFault → Bytes
  | .oddCount => "uispec.ObjectOf: odd argument count"
  | .keyNotString => "uispec.ObjectOf: key is not a string"

def pairUp : List Value → Except PairingFault Fields
  | .str key :: v :: rest => do
    let pairs ← pairUp rest
    return (key, v) :: pairs
  | [] => .ok []
  | _ => .error .keyNotString

def ofAlternating (items : List Value) : Except PairingFault Fields :=
  if items.length % 2 == 1 then .error .oddCount else pairUp items

end Fields

/-! ## Objects that may be absent

A lookup along a path can miss.  The operations below say what each one does with the object that is
not there: it has no pairs, changing it changes nothing, and a copy of it is absent too. -/

/-- A value in which objects may be absent, as it is while a document is put together. -/
inductive Draft where
  | null
  | bool (b : Bool)
  | num (literal : Bytes)
  | str (text : Bytes)
  | arr (items : List Draft)
  | obj (pairs : List (Bytes × Draft))
  | absent
  deriving Repr, Inhabited

namespace Draft

mutual

def ofValue : Value → Draft
  | .null => .null
  | .bool b => .bool b
  | .num literal => .num literal
  | .str text => .str text
  | .arr items => .arr (ofItems items)
  | .obj pairs => .obj (ofFields pairs)

def ofItems : List Value → List Draft
  | [] => []
  | v :: vs => ofValue v :: ofItems vs

def ofFields : Fields → List (Bytes × Draft)
  | [] => []
  | (k, v) :: rest => (k, ofValue v) :: ofFields rest

end

def pairs? : Draft → Option (List (Bytes × Draft))
  | .obj pairs => some pairs
  | .absent => some []
  | _ => none

mutual

/-- Structural equality; the pairs of objects are compared in order, and only if there are equally
many.  An absent first operand has no pairs to walk, so against an equally long second one the
comparison has no answer. -/
def equal? : Draft → Draft → Option Bool
  | .null, .null => some true
  | .bool a, .bool b => some (a == b)
  | .num a, .num b => some (a == b)
  | .str a, .str b => some (a == b)
  | .arr as, .arr bs => if as.length == bs.length then equalItems? as bs else some false
  | .obj as, b =>
    match b.pairs? with
    | some bs => if as.length == bs.length then equalFields? as bs else some false
    | none => some false
  | .absent, b => if b.pairs?.any (·.isEmpty) then none else some false
  | _, _ => some false

def equalItems? : List Draft → List Draft → Option Bool
  | a :: as, b :: bs => do if ← equal? a b then equalItems? as bs else return false
  | _, _ => some true

def equalFields? : List (Bytes × Draft) → List (Bytes × Draft) → Option Bool
  | (k, a) :: as, (l, b) :: bs =>
    if k == l then do if ← equal? a b then equalFields? as bs else return false
    else some false
  | _, _ => some true

end

mutual

/-- A copy of all parts. -/
def clone : Draft → Draft
  | .arr items => .arr (cloneItems items)
  | .obj pairs => .obj (cloneFields pairs)
  | v => v

def cloneItems : List Draft → List Draft
  | [] => []
  | v :: vs => clone v :: cloneItems vs

/-- A copy of each pair. -/
def cloneFields : List (Bytes × Draft) → List (Bytes × Draft)
  | [] => []
  | (k, v) :: rest => (k, clone v) :: cloneFields rest

end

end Draft

namespace Object

/-- An object that may be absent, as a value. -/
def draft : Option Fields → Draft
  | some fields => .obj (Draft.ofFields fields)
  | none => .absent

/-- Structural equality of objects that may be absent. -/
def equal? (a b : Option Fields) : Option Bool := (draft a).equal? (draft b)

end Object

end UiCodegen
