import UiCodegen.Proofs.LosslessEncoding
import UiCodegen.Proofs.Steps

/-!
# Context variables

A variable stands for the value that the innermost binding of its name gives it, and that value is
evaluated in the bindings outside.  There are two ways to get there: `deref` follows variables one
after the other, up to a limit, and `format` formats what a variable is bound to in place of it.
They agree.

The scope of a value matters only for its variables: a value that holds none is formatted alike in
every scope.
-/

namespace UiCodegen.Transpile

open Run

variable {steps : Nat} {s : Scope} {st st' : State} {v : Value} {at_ : Pointer}

/-! ## Following variables -/

section

variable {cfg : Settings} {p : Place} {ctype text name : Bytes}

lemma format_variable (htext : Form.ofString text = .contextVar name) :
      format cfg p (.str text) ctype = match p.scope.lookup? name with
      | some (bound, outer) => format cfg { p with scope := outer } bound ctype
      | none => unbound name p.scope p.at_ := by
  rw [format]
  simp only [htext]
  split <;> rename_i hbound <;> simp only [hbound]

lemma format_of_followVariables (cfg : Settings) (p : Place) (ctype : Bytes)
    {v' : Value} {s' : Scope}
    (h : (followVariables at_ steps v s).outcome st = some (.ok (v', s'), st')) :
    st' = st ∧ format cfg { p with scope := s } v ctype = format cfg
    { p with scope := s' } v' ctype := by
  induction steps generalizing v s with
  | zero => cases h
  | succ steps ih =>
    unfold followVariables at h
    split at h
    · split at h
      · rename_i text name htext
        rw [format_variable htext]
        split at h
        · rename_i bound outer hbound
          simp only [hbound]
          exact ih h
        · cases h
      · cases h
        exact ⟨rfl, rfl⟩
    · cases h
      exact ⟨rfl, rfl⟩

/-- Where following variables comes to one that is not bound, so does formatting. -/
lemma outcome_format_of_unbound {visible : List Bytes}
    (h : (followVariables p.at_ steps v s).outcome st = some
      (.error (.problem (.unbound name visible) at_), st')) :
    (format cfg { p with scope := s } v ctype).outcome st =
      some (.error (.problem (.unbound name visible) at_), st') := by
  induction steps generalizing v s with
  | zero => cases h
  | succ steps ih =>
    unfold followVariables at h
    split at h
    · split at h
      · rename_i text name htext
        rw [format_variable htext]
        split at h
        · rename_i bound outer hbound
          simp only [hbound]
          exact ih h
        · rename_i hbound
          simp only [hbound]
          cases h
          rfl
      · cases h
    · cases h

end

/-- If the variables of a value lead to another value in another scope, formatting the one in its
scope gives the same result and does the same to the state as formatting the other in the other
scope.  If they lead to a variable that is not bound, formatting fails as following them does. -/
theorem format_agrees_with_deref (cfg : Settings) (p : Place) (v : Value) (ctype : Bytes)
    (st : State) : (∀ at_ v' s' st', (deref v p.scope at_).outcome st = some (.ok (v', s'), st') →
      (format cfg p v ctype).outcome st =
      (format cfg { p with scope := s' } v' ctype).outcome st') ∧
    ∀ name visible at_ st',
      (deref v p.scope p.at_).outcome st = some
        (.error (.problem (.unbound name visible) at_), st') →
      (format cfg p v ctype).outcome st = some
        (.error (.problem (.unbound name visible) at_), st') := by
  constructor
  · intro at_ v' s' st' h
    obtain ⟨rfl, hformat⟩ := format_of_followVariables cfg p ctype h
    exact congrArg (fun x => x.outcome st') hformat
  · intro name visible at_ st' h
    exact outcome_format_of_unbound h

/-! ### A title that is bound three times over -/

/-- A title is bound to the outer variable of the same name, that one to another variable, and this
to a text. -/
def titleScope : Scope :=
  [[("t", .str "$t")], [("t", .str "$u"), ("w", .str "$x")], [("u", .str "outer")]]

def titlePlace :
    Place :=
    { scope := titleScope, path := [], entity := (rootFrame bareSettings).parent, at_ := {} }

/-- The title leads to the text, which is formatted in its place; the other variable leads nowhere,
and formatting says so. -/
theorem titlePlace_format_agrees_with_deref :
    (deref (.str "$t") titleScope {}).outcome {} = some (.ok (.str "outer", []), {}) ∧
      (format bareSettings titlePlace (.str "$t") "const char *").outcome {} =
        (format bareSettings { titlePlace with scope := [] } (.str "outer") "const char *").outcome
        {} ∧
      (deref (.str "$w") titleScope {}).outcome {} =
        some (.error (.problem (.unbound "x" ["u"]) {}), {}) ∧
      (format bareSettings titlePlace (.str "$w") "const char *").outcome {} =
        some (.error (.problem (.unbound "x" ["u"]) {}), {}) := by
  have htitle : (deref (.str "$t") titleScope {}).outcome {} = some (.ok (.str "outer", []), {}) :=
    rfl
  have hother : (deref (.str "$w") titleScope {}).outcome {} =
      some (.error (.problem (.unbound "x" ["u"]) {}), {}) := rfl
  exact ⟨htitle, (format_agrees_with_deref bareSettings titlePlace _ _ {}).1
    {} _ _ _ htitle, hother,
    (format_agrees_with_deref bareSettings titlePlace _ _ {}).2 _ _ _ _ hother⟩

/-! ## Values without variables -/

def VariableFree (v : Value) : Prop :=
  ∀ text, Document.Json.Within (.str text) v → ∀ name, Form.ofString text ≠ .contextVar name

lemma VariableFree.item {items : List Value} (h : VariableFree (.arr items)) :
    ∀ v ∈ items, VariableFree v :=
  fun _ hv text htext => h text (.item hv htext)

lemma VariableFree.field {fields : Fields} (h : VariableFree (.obj fields)) :
    ∀ pair ∈ fields, VariableFree pair.2 :=
  fun _ hpair text htext => h text (.field hpair htext)

lemma VariableFree.argument {fields : Fields} {function : Bytes} {args : List Value}
    (h : VariableFree (.obj fields)) (hcall : Form.ofFields fields = .ok (.call function args)) :
    ∀ v ∈ args, VariableFree v := by
  unfold Form.ofFields at hcall
  split at hcall
  · cases hcall
  · cases hcall
  · split at hcall
    · cases hcall
      exact fun _ hv => by cases hv
    · cases hcall
      exact fun _ hv => by cases hv
    · rename_i hargs
      cases hcall
      obtain ⟨key, hpair⟩ := Fields.mem_of_get? hargs
      exact (h.field _ hpair).item
    · cases hcall
  · cases hcall

mutual

/-- Without variables nothing is looked up in the scope. -/
lemma format_scope (cfg : Settings) (p : Place) (s : Scope) {v : Value} (hv : VariableFree v)
    (ctype : Bytes) : format cfg { p with scope := s } v ctype = format cfg p v ctype := by
  unfold format
  match v, hv with
  | .null, _ | .bool _, _ | .num _, _ => rfl
  | .str text, hv =>
    have hno := hv text .refl
    dsimp only
    split
    · rename_i name htext
      exact absurd htext (hno name)
    · rfl
  | .arr items, hv =>
    simp only [formatItems_scope cfg p s hv.item]
    rfl
  | .obj fields, hv =>
    dsimp only
    split
    · rfl
    · rename_i function args hcall
      have : sizeOf args < 1 + sizeOf fields := sizeOf_callArgs_lt hcall
      rw [formatCall_scope cfg p s (hv.argument hcall)]
    · simp only [formatFields_scope cfg p s hv.field]
      rfl
termination_by (sizeOf v, 0)

lemma formatItems_scope (cfg : Settings) (p : Place) (s : Scope) {items : List Value}
    (hitems : ∀ v ∈ items, VariableFree v) (i : Nat) (typeOf : Nat → Bytes) :
    formatItems cfg { p with scope := s } i items typeOf = formatItems cfg p i items typeOf := by
  match items with
  | [] => rw [formatItems, formatItems]
  | item :: rest =>
    obtain ⟨hitem, hrest⟩ := List.forall_mem_cons.1 hitems
    have hfirst : format cfg (Place.index { p with scope := s } i) item (typeOf i) = _ :=
      format_scope cfg (p.index i) s hitem (typeOf i)
    rw [formatItems, formatItems, hfirst, formatItems_scope cfg p s hrest (i + 1) typeOf]
termination_by (sizeOf items, 0)

lemma formatFields_scope (cfg : Settings) (p : Place) (s : Scope) {fields : Fields}
    (hfields : ∀ pair ∈ fields, VariableFree pair.2) (ctype : Bytes) (record : Api.StructRecord) :
    formatFields cfg { p with scope := s } ctype record fields = formatFields cfg p ctype
    record fields := by
  match fields with
  | [] => rw [formatFields, formatFields]
  | (key, v) :: rest =>
    obtain ⟨hv, hrest⟩ := List.forall_mem_cons.1 hfields
    have hfirst : ∀ ctype, format cfg (Place.key { p with scope := s } key) v ctype = _ :=
      format_scope cfg (p.key key) s hv
    rw [formatFields, formatFields, formatFields_scope cfg p s hrest ctype record]
    simp only [hfirst]
termination_by (sizeOf fields, 0)

lemma formatCall_scope (cfg : Settings) (p : Place) (s : Scope) {args : List Value}
    (hargs : ∀ v ∈ args, VariableFree v) (function : Bytes) :
    formatCall cfg { p with scope := s } function args = formatCall cfg p function args := by
  have hitems : ∀ (inner : Place) typeOf,
      formatItems cfg { inner with scope := s } 0 args typeOf = formatItems cfg inner 0
        args typeOf :=
    fun inner typeOf => formatItems_scope cfg inner s hargs 0 typeOf
  rw [formatCall, formatCall]
  refine bind_congr fun f => ?_
  dsimp only
  split
  · rfl
  · rename_i plan hplan
    exact congrArg (fun values => values >>= _) (hitems { p with
      at_ := p.at_.key "args", function := f.name,
      arrayBase := if p.arrayBase.isEmpty then C.identifier f.name ++ "_arg" else p.arrayBase } _)
termination_by (sizeOf args, 1)

end

end UiCodegen.Transpile
