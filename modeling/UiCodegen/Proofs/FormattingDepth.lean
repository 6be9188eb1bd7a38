import UiCodegen.Proofs.Formatting

/-!
# Formatting ends

A value is formatted by formatting values inside it, and a context variable by formatting the value
that is bound to it, which may be larger than anything around the variable and may hold variables in
turn.  Neither the value nor the scope gets smaller with every step.  What does is their sum: the
height of the value, and the heights of all bindings around it (`Place.rank`).

That formatting ends is said of the recursion itself.  `formatWithin` formats like `format`, and has
no outcome where more than so many values would be formatted inside each other.  As many as the rank
always suffice (`format_terminates`), whatever the bindings refer to.
-/

namespace UiCodegen

variable {key : Bytes} {v : Value} {fields : Fields}

/-! ## Heights -/

namespace Value

mutual

/-- How many values stand inside each other. -/
def height : Value → Nat
  | .arr items => itemsHeight items + 1
  | .obj fields => fieldsHeight fields + 1
  | _ => 1

def itemsHeight : List Value → Nat
  | [] => 0
  | item :: rest => max item.height (itemsHeight rest)

def fieldsHeight : List (Bytes × Value) → Nat
  | [] => 0
  | (_, v) :: rest => max v.height (fieldsHeight rest)

end

lemma height_le_fieldsHeight {fields : List (Bytes × Value)} (h : (key, v) ∈ fields) :
    v.height ≤ fieldsHeight fields := by
  induction fields with
  | nil => cases h
  | cons first rest ih =>
    obtain ⟨firstKey, firstValue⟩ := first
    rw [fieldsHeight]
    obtain hfirst | h := List.mem_cons.1 h
    · cases hfirst
      exact le_max_left _ _
    · exact (ih h).trans (le_max_right _ _)

lemma height_get?_le (h : fields.get? key = some v) : v.height ≤ fieldsHeight fields := by
  obtain ⟨k, hmem⟩ := Fields.mem_of_get? h
  exact height_le_fieldsHeight hmem

lemma itemsHeight_callArgs_le {function : Bytes} {args : List Value}
    (h : Form.ofFields fields = .ok (.call function args)) :
    itemsHeight args ≤ fieldsHeight fields := by
  unfold Form.ofFields at h
  split at h
  · cases h
  · cases h
  · split at h
    · cases h
      exact Nat.zero_le _
    · cases h
      exact Nat.zero_le _
    · rename_i hargs
      cases h
      have := height_get?_le hargs
      rw [height] at this
      exact Nat.le_of_succ_le this
    · cases h
  · cases h

end Value

namespace Transpile

open Value

def Scope.height : Scope → Nat
  | [] => 0
  | bindings :: outer => fieldsHeight bindings + Scope.height outer

/-- A bound value and the bindings around it are no higher than the bindings that it was found in.
-/
lemma Scope.height_lookup?_le {s outer : Scope} {name : Bytes} {v : Value}
    (h : s.lookup? name = some (v, outer)) : v.height + outer.height ≤ s.height := by
  induction s with
  | nil => cases h
  | cons bindings rest ih =>
    rw [Scope.height]
    rw [lookup?] at h
    split at h
    · rename_i hbound
      cases h
      exact Nat.add_le_add_right (height_get?_le hbound) _
    · exact (ih h).trans (Nat.le_add_left _ _)

def Place.rank (p : Place) (v : Value) : Nat := v.height + p.scope.height

/-! ## One value -/

/-- The steps have an outcome in every state. -/
def Run.Ends {α : Type} (x : Run α) : Prop := ∀ st, (x.outcome st).isSome

section

variable (cfg : Settings) (self : Place → Value → Bytes → Run Expr)

/-- Formats items one after the other, each by `self`. -/
def itemsBy (p : Place) (i : Nat) (items : List Value) (typeOf : Nat → Bytes) : Run (List Expr) :=
  match items with
  | [] => pure []
  | item :: rest => do
    let e ← self (p.index i) item (typeOf i)
    let es ← itemsBy p (i + 1) rest typeOf
    pure (e :: es)

/-- Formats the fields of a record, each by `self`. -/
def fieldsBy (p : Place) (ctype : Bytes) (record : Api.StructRecord)
    (fields : List (Bytes × Value)) : Run (List (Bytes × Expr)) :=
  match fields with
  | [] => pure []
  | (key, v) :: rest => do
    match Api.lastNamed? Api.FieldRecord.name key record.fields with
    | none => fail (.unknownField ctype key) (p.at_.key key)
    | some field =>
      let e ← self (p.key key) v (cfg.index.fieldType field)
      let es ← fieldsBy p ctype record rest
      pure ((46 :: key ++ " = ", e) :: es)

/-- Formats a call, its arguments by `self`. -/
def callBy (p : Place) (function : Bytes) (args : List Value) : Run (Expr × Bytes) := do
  let f ← calledFunction cfg p function
  match callPlan? cfg f args.length with
  | none => fail (.argumentCount f.name f.arity args.length) p.at_
  | some plan =>
    let base := if p.arrayBase.isEmpty then C.identifier f.name ++ "_arg" else p.arrayBase
    let inner : Place := { p with at_ := p.at_.key "args", function := f.name, arrayBase := base }
    let skipped := if plan.target then 1 else 0
    let values ← itemsBy self inner 0 args (fun i => paramType f (i + skipped))
    let first := if plan.target then [Expr.entity p.entity] else []
    let last := if plan.selector then [Expr.text "0"] else []
    pure (.call f.name (first ++ values ++ last), f.result)

/-- Formats a value, the values that it refers to or consists of by `self`. -/
def valueBy (p : Place) (v : Value) (ctype : Bytes) : Run Expr :=
  let info := cfg.index.describe ctype
  match v with
  | .null => formatNull p ctype info
  | .bool b => formatBool p b ctype info
  | .num literal => formatNumber p literal ctype info
  | .str s =>
    match Form.ofString s with
    | .contextVar name =>
      match p.scope.lookup? name with
      | some (bound, outer) => self { p with scope := outer } bound ctype
      | none => unbound name p.scope p.at_
    | _ => formatString cfg p s ctype info
  | .arr items =>
    match info.cls with
    | .coordArray => do
      let elem := info.ctype.elem.unqualified.text
      let values ← itemsBy self p 0 items (fun _ => elem)
      let values := if takesTemplates p.function then closeTemplate values else values
      let base := if p.arrayBase.isEmpty then Bytes.ofString "c_arr" else p.arrayBase
      pure (.static (← staticArray base elem values))
    | .struct | .color =>
      match info.record with
      | none => p.mismatch "array" ctype
      | some record => do
        if items.length != record.fields.length then
          fail (.fieldCount ctype record.fields.length items.length) p.at_
        else
          let types := record.fields.map cfg.index.fieldType
          let values ← itemsBy self p 0 items (fun i => (types[i]?).getD [])
          pure (.compound info.ctype.unqualified.text (values.map fun e => ([], e)))
    | _ => p.mismatch "array" ctype
  | .obj fields =>
    match Form.ofFields fields with
    | .error why => fail (.badValue why) p.at_
    | .ok (.call function args) => do
      let (e, result) ← callBy cfg self p function args
      if result == "void" then fail (.returnsVoid function) p.at_ else pure e
    | .ok _ =>
      if info.cls == .struct || info.cls == .color then
        match info.record with
        | none => p.mismatch "object" ctype
        | some record => do
          let parts ← fieldsBy cfg self p ctype record fields
          pure (.compound info.ctype.unqualified.text parts)
      else p.mismatch "object" ctype

end

/-- Formats a value, with at most `depth` values inside each other.  There is no outcome where they
do not suffice. -/
def formatWithin (cfg : Settings) : (depth : Nat) → Place → Value → Bytes → Run Expr
  | 0, _, _, _ => ExceptT.mk fun _ => none
  | depth + 1, p, v, ctype => valueBy cfg (formatWithin cfg depth) p v ctype

section

variable (cfg : Settings)

lemma formatItems_eq_itemsBy (p : Place) (i : Nat) (items : List Value) (typeOf : Nat → Bytes) :
    formatItems cfg p i items typeOf = itemsBy (format cfg) p i items typeOf := by
  induction items generalizing i with
  | nil => rw [formatItems, itemsBy]
  | cons item rest ih => simp only [formatItems, itemsBy, ih]

lemma formatFields_eq_fieldsBy (p : Place) (ctype : Bytes) (record : Api.StructRecord)
    (fields : List (Bytes × Value)) :
    formatFields cfg p ctype record fields = fieldsBy cfg (format cfg) p ctype record fields := by
  induction fields with
  | nil => rw [formatFields, fieldsBy]
  | cons field rest ih =>
    obtain ⟨key, v⟩ := field
    rw [formatFields, ih]
    rfl

lemma formatCall_eq_callBy (p : Place) (function : Bytes) (args : List Value) :
    formatCall cfg p function args = callBy cfg (format cfg) p function args := by
  simp only [formatCall, formatItems_eq_itemsBy]
  rfl

lemma format_eq_valueBy (p : Place) (v : Value) (ctype : Bytes) :
    format cfg p v ctype = valueBy cfg (format cfg) p v ctype := by
  unfold format
  cases v with
  | null => rfl
  | bool b => rfl
  | num literal => rfl
  | str s =>
    dsimp only [valueBy]
    generalize Form.ofString s = form
    cases form with
    | contextVar name =>
      dsimp only
      split
      · rename_i hbound
        rw [hbound]
      · rename_i hnone
        rw [hnone]
    | _ => rfl
  | arr items =>
    simp only [formatItems_eq_itemsBy]
    rfl
  | obj fields =>
    simp only [valueBy, formatCall_eq_callBy, formatFields_eq_fieldsBy]
    split
    · rename_i why hform
      rw [hform]
    · rename_i function args hform
      rw [hform]
    · rename_i form hother hform
      rw [hform]
      cases form with
      | call function args => exact absurd rfl (hother function args)
      | _ => rfl

end

/-! ## Inside each other -/

/-- Two ways to format agree wherever the rank is at most `n`. -/
def AgreeUpTo (n : Nat) (self self' : Place → Value → Bytes → Run Expr) : Prop :=
  ∀ (p : Place) (v : Value) (ctype : Bytes), p.rank v ≤ n → self p v ctype = self' p v ctype

lemma AgreeUpTo.mono {n m : Nat} {self self' : Place → Value → Bytes → Run Expr}
    (h : AgreeUpTo n self self') (hm : m ≤ n) : AgreeUpTo m self self' :=
  fun p v ctype hrank => h p v ctype (hrank.trans hm)

section

variable {cfg : Settings} {self self' : Place → Value → Bytes → Run Expr} {p : Place}

lemma itemsBy_congr {items : List Value}
    (h : AgreeUpTo (itemsHeight items + p.scope.height) self self') (i : Nat)
    (typeOf : Nat → Bytes) : itemsBy self p i items typeOf = itemsBy self' p i items typeOf := by
  induction items generalizing i with
  | nil => rfl
  | cons item rest ih =>
    rw [itemsHeight] at h
    have hitem : self (p.index i) item (typeOf i) = self' (p.index i) item (typeOf i) :=
      h _ _ _ (Nat.add_le_add_right (le_max_left _ _) _)
    have hrest := ih (h.mono (Nat.add_le_add_right (le_max_right _ _) _)) (i + 1)
    rw [itemsBy, itemsBy, hitem, hrest]

lemma fieldsBy_congr {fields : List (Bytes × Value)}
    (h : AgreeUpTo (fieldsHeight fields + p.scope.height) self self') (ctype : Bytes)
    (record : Api.StructRecord) :
    fieldsBy cfg self p ctype record fields = fieldsBy cfg self' p ctype record fields := by
  induction fields with
  | nil => rfl
  | cons field rest ih =>
    obtain ⟨key, v⟩ := field
    rw [fieldsHeight] at h
    have hvalue : ∀ type, self (p.key key) v type = self' (p.key key) v type :=
      fun type => h _ _ _ (Nat.add_le_add_right (le_max_left _ _) _)
    have hrest := ih (h.mono (Nat.add_le_add_right (le_max_right _ _) _))
    simp only [fieldsBy, hvalue, hrest]

lemma callBy_congr {args : List Value}
    (h : AgreeUpTo (itemsHeight args + p.scope.height) self self')
    (function : Bytes) : callBy cfg self p function args = callBy cfg self' p function args := by
  unfold callBy
  refine bind_congr fun f => ?_
  cases callPlan? cfg f args.length with
  | none => rfl
  | some plan =>
    refine congrArg (· >>= _) (itemsBy_congr ?_ 0 _)
    exact h

/-- What is formatted for a value is below it: by the scope for a variable, and by the value
otherwise. -/
lemma valueBy_congr {n : Nat} (h : AgreeUpTo n self self') {v : Value} (hrank : p.rank v ≤ n + 1)
    (ctype : Bytes) : valueBy cfg self p v ctype = valueBy cfg self' p v ctype := by
  unfold Place.rank at hrank
  unfold valueBy
  cases v with
  | null => rfl
  | bool b => rfl
  | num literal => rfl
  | str s =>
    dsimp only
    split
    · split
      · rename_i bound outer hbound
        have hheight := Scope.height_lookup?_le hbound
        have hbelow : Place.rank { p with scope := outer } bound ≤ n := by
          simp only [height] at hrank
          unfold Place.rank
          dsimp only
          omega
        exact h _ _ _ hbelow
      · rfl
    · rfl
  | arr items =>
    have hitems : AgreeUpTo (itemsHeight items + p.scope.height) self self' :=
      h.mono (by rw [height] at hrank; omega)
    simp only [itemsBy_congr hitems]
  | obj fields =>
    dsimp only
    split
    · rfl
    · rename_i function args hform
      have hle := itemsHeight_callArgs_le hform
      have hargs : AgreeUpTo (itemsHeight args + p.scope.height) self self' :=
        h.mono (by rw [height] at hrank; omega)
      rw [callBy_congr hargs]
    · have hfields : AgreeUpTo (fieldsHeight fields + p.scope.height) self self' :=
        h.mono (by rw [height] at hrank; omega)
      simp only [fieldsBy_congr hfields]

end

/-- The induction is on the depth: what is formatted for a value has a smaller rank. -/
lemma agreeUpTo_formatWithin (cfg : Settings) (depth : Nat) :
    AgreeUpTo depth (formatWithin cfg depth) (format cfg) := by
  induction depth with
  | zero =>
    intro p v ctype hrank
    have hheight : 1 ≤ v.height := by cases v <;> simp [height]
    unfold Place.rank at hrank
    omega
  | succ depth ih =>
    intro p v ctype hrank
    rw [formatWithin, format_eq_valueBy]
    exact valueBy_congr ih hrank ctype

lemma Run.Moves.ends {α : Type} {R : State → State → Prop} {x : Run α} (hx : x.Moves R) :
    x.Ends := by
  intro st
  obtain ⟨r, st', hr, -⟩ := hx st
  rw [hr]
  rfl

/-- **Formatting ends.**  Whatever the value, its type and the bindings around it are, formatting it
has an outcome in every state, and comes to it with no more values inside each other than the height
of the value and the heights of the bindings together; and so for the items of an array, the fields
of a record and the arguments of a call. -/
theorem format_terminates (cfg : Settings) (p : Place) (extra : Nat) :
    (∀ v ctype, formatWithin cfg (v.height + p.scope.height + extra) p v ctype =
      format cfg p v ctype ∧ (format cfg p v ctype).Ends) ∧
    (∀ i items typeOf, itemsBy (formatWithin cfg (itemsHeight items + p.scope.height + extra)) p i
        items typeOf = formatItems cfg p i items typeOf ∧
      (formatItems cfg p i items typeOf).Ends) ∧
    (∀ ctype record fields,
      fieldsBy cfg (formatWithin cfg (fieldsHeight fields + p.scope.height + extra)) p ctype
        record fields = formatFields cfg p ctype record fields ∧
      (formatFields cfg p ctype record fields).Ends) ∧
    ∀ function args, callBy cfg (formatWithin cfg (itemsHeight args + p.scope.height + extra)) p
        function args = formatCall cfg p function args ∧
      (formatCall cfg p function args).Ends := by
  have hagree : ∀ n, AgreeUpTo n (formatWithin cfg (n + extra)) (format cfg) :=
    fun n => (agreeUpTo_formatWithin cfg (n + extra)).mono (Nat.le_add_right _ _)
  refine ⟨fun v ctype => ⟨?_, (formats_format cfg p v ctype).ends⟩,
    fun i items typeOf => ⟨?_, (formats_formatItems cfg p i items typeOf).ends⟩,
    fun ctype record fields => ⟨?_, (formats_formatFields cfg p ctype record fields).ends⟩,
    fun function args => ⟨?_, (formats_formatCall cfg p function args).ends⟩⟩
  · exact hagree _ _ _ _ le_rfl
  · rw [formatItems_eq_itemsBy]
    exact itemsBy_congr (hagree _) i typeOf
  · rw [formatFields_eq_fieldsBy]
    exact fieldsBy_congr (hagree _) ctype record
  · rw [formatCall_eq_callBy]
    exact callBy_congr (hagree _) function

/-- Of two bindings that refer to each other, the second is not bound where the first is formatted.
-/
example (cfg : Settings) (p : Place) (ctype : Bytes) :
    formatWithin cfg 2 { p with scope := [[("a", .str "$b"), ("b", .str "$a")]] }
      (.str "$a") ctype = unbound "b" [] p.at_ := rfl

end Transpile

end UiCodegen
