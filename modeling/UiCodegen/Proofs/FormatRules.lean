import UiCodegen.Proofs.Steps

/-!
# Rules for formatting

Formatting a value is made of few kinds of steps.  It looks at the state, but neither at the
components nor at the log; it defines static objects and remembers names and answers; it reports
references that are left to the running program; and it fails with problems.  A property of steps
that has a rule for each of these (`FormatRules`) is a property of all formatting.  The induction
over values is done here once.  With a rule for writing statements besides (`SetterRules`), it is a
property of setting attributes.
-/

namespace UiCodegen.Transpile

namespace State

/-- What formatting keeps: the locals, the registry, the components and the counters. -/
def fixed (st : State) : List Local × Registry × List (Bytes × Fields) × Nat × Nat × Nat :=
  (st.locals, st.registry, st.components, st.counter, st.withCount, st.entities)

def bare (st : State) : State := { st with components := [], log := [] }

/-- What steps made of a bare state, with the components of `st` and on top of its log. -/
def onto (after st : State) :
    State := { after with components := st.components, log := after.log ++ st.log }

end State

/-- A change of definitions, static names or remembered answers. -/
structure TakesNote (f : State → State) : Prop where
  fixed : ∀ st, (f st).fixed = st.fixed := by exact fun _ => rfl
  lines : ∀ st, ((f st).diagnostics, (f st).body) = (st.diagnostics, st.body) := by
    exact fun _ => rfl
  definitions : ∀ st, st.definitions <:+ (f st).definitions := by exact fun _ => List.suffix_refl _
  blind : ∀ st, f st = (f st.bare).onto st := by exact fun _ => rfl

/-- A property of steps with rules for what formatting is made of. -/
structure FormatRules (P : (α : Type) → Run α → Prop) : Prop where
  pure {α : Type} (a : α) : P α (pure a)
  fail {α : Type} (p : Problem) (at_ : Pointer) : P α (fail p at_)
  bind {α β : Type} {x : Run α} {k : α → Run β} (hx : P α x) (hk : ∀ a, P β (k a)) : P β (x >>= k)
  look {α : Type} {k : State → Run α} (hlook : ∀ st, k st = k st.bare) (hk : ∀ st, P α (k st)) :
    P α (get >>= k)
  note {f : State → State} (hf : TakesNote f) : P Unit (modify f)
  warn (p : Problem) (at_ : Pointer) : P Unit (warn p at_)

/-- The steps come to a text or to a problem, without a look at the state. -/
def Run.Literal (x : Run Expr) :
    Prop := (∃ text, x = pure (.text text)) ∨ ∃ problem at_, x = fail problem at_

lemma literal_pure (text : Bytes) : (pure (.text text) : Run Expr).Literal := .inl ⟨text, rfl⟩

lemma literal_fail (problem : Problem) (at_ : Pointer) : (fail problem at_ : Run Expr).Literal :=
  .inr ⟨problem, at_, rfl⟩

section

variable (cfg : Settings) (p : Place)

lemma literal_formatColor (rgb : Nat) (ctype : Bytes) (info : Api.TypeInfo) :
    (formatColor p rgb ctype info).Literal := by
  unfold formatColor
  split_ifs
  · exact literal_pure _
  · exact literal_pure _
  · exact literal_pure _
  · exact literal_fail _ _

lemma literal_formatPercent (n : Int) (ctype : Bytes) (info : Api.TypeInfo) :
    (formatPercent p n ctype info).Literal := by
  unfold formatPercent
  split_ifs
  · exact literal_pure _
  · exact literal_pure _
  · exact literal_fail _ _

lemma literal_formatIdent (text ctype : Bytes) (info : Api.TypeInfo) :
    (formatIdent cfg p text ctype info).Literal := by
  unfold formatIdent
  split
  · exact literal_pure _
  split
  · exact literal_pure _
  split
  · exact literal_pure _
  · exact literal_fail _ _

lemma literal_formatNumber (literal ctype : Bytes) (info : Api.TypeInfo) :
    (formatNumber p literal ctype info).Literal := by
  -- Types of pointers take no number but zero.
  have hnull : (if literal == "0" then pure (.text "NULL")
      else fail (.needsNull ctype literal) p.at_ : Run Expr).Literal := by
    split_ifs
    · exact literal_pure _
    · exact literal_fail _ _
  unfold formatNumber
  dsimp only
  split
  · split_ifs
    · exact literal_fail _ _
    · exact literal_fail _ _
    · exact literal_pure _
  · split_ifs
    · exact literal_pure _
    · exact literal_fail _ _
  · exact literal_pure _
  · split_ifs
    · exact literal_pure _
    · exact literal_pure _
    · exact literal_fail _ _
  · split
    · split_ifs
      · exact literal_pure _
      · exact literal_fail _ _
    · exact literal_fail _ _
  · exact hnull
  · exact hnull
  · exact hnull
  · exact hnull
  · exact literal_pure _
  · exact literal_fail _ _

lemma literal_formatBool (v : Bool) (ctype : Bytes) (info : Api.TypeInfo) :
    (formatBool p v ctype info).Literal := by
  unfold formatBool
  split
  · exact literal_pure _
  · exact literal_pure _
  · exact literal_pure _
  · exact literal_fail _ _

lemma literal_formatNull (ctype : Bytes) (info : Api.TypeInfo) :
    (formatNull p ctype info).Literal := by
  unfold formatNull
  split
  · exact literal_pure _
  · exact literal_fail _ _

end

namespace FormatRules

variable {P : (α : Type) → Run α → Prop} (h : FormatRules P)

/-! ## Names, strings and lookups -/

include h in
lemma define (d : Definition) : P Unit (Transpile.define d) :=
  h.note { definitions := fun _ => List.suffix_cons _ _ }

include h in
lemma staticArray (base elemType : Bytes) (items : List Expr) :
    P Bytes (Transpile.staticArray base elemType items) := by
  refine h.bind (h.look (fun _ => rfl) fun st => ?_) fun name => h.bind (h.define _) fun _ =>
    h.pure _
  exact h.bind (h.note {}) fun _ => h.pure _

include h in
lemma internString (text : Bytes) : P Bytes (Transpile.internString text) := by
  refine h.look (fun _ => rfl) fun st => ?_
  split
  · exact h.pure _
  · exact h.look (fun _ => rfl) fun st => h.bind (h.note {}) fun _ => h.bind (h.define _) fun _ =>
      h.pure _

include h in
lemma declareLookup : P Unit Transpile.declareLookup := by
  refine h.look (fun _ => rfl) fun st => ?_
  split
  · exact h.bind (h.note {}) fun _ => h.define _
  · exact h.pure _

include h in
lemma uncallable? (cfg : Settings) (function : Api.FunctionInfo) :
    P (Option Uncallable) (Transpile.uncallable? cfg function) := by
  have hremember : ∀ answer : Option Uncallable, P (Option Uncallable) (do
      modify fun st => { st with callable := (function.name, answer) :: st.callable }
      Pure.pure answer) :=
    fun answer => h.bind (h.note {}) fun _ => h.pure _
  refine h.look (fun _ => rfl) fun st => ?_
  split
  · exact h.pure _
  · dsimp only
    split
    · exact h.look (fun _ => rfl) fun _ => h.bind (h.note {}) fun _ => h.bind (h.pure _) hremember
    · exact h.bind (h.pure _) hremember

/-! ## Values -/

section

variable (cfg : Settings) (p : Place)

include h in
lemma literal {x : Run Expr} (hx : x.Literal) : P Expr x := by
  obtain ⟨text, rfl⟩ | ⟨problem, at_, rfl⟩ := hx
  · exact h.pure _
  · exact h.fail problem at_

include h in
lemma formatRef (name ctype : Bytes) (info : Api.TypeInfo) :
    P Expr (Transpile.formatRef p name ctype info) := by
  unfold Transpile.formatRef
  split
  · exact h.fail _ _
  refine h.look (fun _ => rfl) fun st => ?_
  split
  · exact h.pure _
  · exact h.bind (h.warn _ _) fun _ => h.bind h.declareLookup fun _ => h.pure _

include h in
lemma formatString (s ctype : Bytes) (info : Api.TypeInfo) :
    P Expr (Transpile.formatString cfg p s ctype info) := by
  unfold Transpile.formatString
  split
  · exact h.formatRef p _ ctype info
  · split
    · exact h.bind (h.internString _) fun _ => h.pure _
    · exact h.fail _ _
  · split
    · exact h.pure _
    · exact h.fail _ _
  · exact h.literal (literal_formatColor p _ ctype info)
  · exact h.literal (literal_formatPercent p _ ctype info)
  · exact h.literal (literal_formatIdent cfg p _ ctype info)
  · exact h.fail _ _

include h in
lemma calledFunction (name : Bytes) : P Api.FunctionInfo (Transpile.calledFunction cfg p name) := by
  unfold Transpile.calledFunction
  split
  · exact h.fail _ _
  refine h.bind (h.uncallable? cfg _) fun why => ?_
  split
  · exact h.fail _ _
  · exact h.pure _

end

mutual

/-- The induction is the one that formatting itself ends by: scopes shrink when a variable is
followed, and values otherwise. -/
lemma format {P : (α : Type) → Run α → Prop} (h : FormatRules P) (cfg : Settings)
    (p : Place) (v : Value) (ctype : Bytes) : P Expr (Transpile.format cfg p v ctype) := by
  unfold Transpile.format
  cases v with
  | null => exact h.literal (literal_formatNull p ctype _)
  | bool b => exact h.literal (literal_formatBool p b ctype _)
  | num literal => exact h.literal (literal_formatNumber p literal ctype _)
  | str s =>
    dsimp only
    split
    · split
      · rename_i bound outer hbound
        have : outer.length < p.scope.length := Scope.length_lookup?_lt hbound
        exact format h cfg { p with scope := outer } bound ctype
      · exact h.fail _ _
    · exact h.formatString cfg p s ctype _
  | arr items =>
    dsimp only
    split
    · exact h.bind (formatItems h cfg p 0 items _) fun values => h.bind (h.staticArray _ _ _)
        fun name => h.pure _
    · split
      · exact h.fail _ _
      · split
        · exact h.fail _ _
        · exact h.bind (formatItems h cfg p 0 items _) fun values => h.pure _
    · split
      · exact h.fail _ _
      · split
        · exact h.fail _ _
        · exact h.bind (formatItems h cfg p 0 items _) fun values => h.pure _
    · exact h.fail _ _
  | obj fields =>
    dsimp only
    split
    · exact h.fail _ _
    · rename_i function args hcall
      have : sizeOf args < 1 + sizeOf fields := sizeOf_callArgs_lt hcall
      refine h.bind (formatCall h cfg p function args) fun call => ?_
      split
      · exact h.fail _ _
      · exact h.pure _
    · split
      · split
        · exact h.fail _ _
        · exact h.bind (formatFields h cfg p ctype _ fields) fun parts => h.pure _
      · exact h.fail _ _
termination_by (p.scope.length, sizeOf v, 0)

lemma formatItems {P : (α : Type) → Run α → Prop} (h : FormatRules P) (cfg : Settings)
    (p : Place) (i : Nat)
    (items : List Value) (typeOf : Nat → Bytes) :
    P (List Expr) (Transpile.formatItems cfg p i items typeOf) := by
  unfold Transpile.formatItems
  match items with
  | [] => exact h.pure _
  | item :: rest =>
    exact h.bind (format h cfg (p.index i) item (typeOf i)) fun e =>
      h.bind (formatItems h cfg p (i + 1) rest typeOf) fun es => h.pure _
termination_by (p.scope.length, sizeOf items, 0)

lemma formatFields {P : (α : Type) → Run α → Prop} (h : FormatRules P) (cfg : Settings) (p : Place)
    (ctype : Bytes) (record : Api.StructRecord) (fields : List (Bytes × Value)) :
    P (List (Bytes × Expr)) (Transpile.formatFields cfg p ctype record fields) := by
  unfold Transpile.formatFields
  match fields with
  | [] => exact h.pure _
  | (key, v) :: rest =>
    dsimp only
    split
    · exact h.fail _ _
    · exact h.bind (format h cfg (p.key key) v _) fun e =>
        h.bind (formatFields h cfg p ctype record rest) fun es => h.pure _
termination_by (p.scope.length, sizeOf fields, 0)

lemma formatCall {P : (α : Type) → Run α → Prop} (h : FormatRules P) (cfg : Settings) (p : Place)
    (function : Bytes)
    (args : List Value) : P (Expr × Bytes) (Transpile.formatCall cfg p function args) := by
  unfold Transpile.formatCall
  refine h.bind (h.calledFunction cfg p function) fun f => ?_
  split
  · exact h.fail _ _
  · exact h.bind (formatItems h cfg _ 0 args _) fun values => h.pure _
termination_by (p.scope.length, sizeOf args, 1)

end

/-! ## Attributes -/

section

variable (cfg : Settings) (at_ : Pointer)

include h in
/-- Following variables ends because only so many of them are followed. -/
lemma followVariables (steps : Nat) (v : Value) (s : Scope) :
    P (Value × Scope) (Transpile.followVariables at_ steps v s) := by
  induction steps generalizing v s with
  | zero => exact h.fail _ _
  | succ steps ih =>
    unfold Transpile.followVariables
    split
    · split
      · split
        · exact ih _ _
        · exact h.fail _ _
      · exact h.pure _
    · exact h.pure _

include h in
lemma usable (names : List Bytes) :
    P (List Api.FunctionInfo × Option Uncallable) (Transpile.usable cfg names) := by
  induction names with
  | nil => exact h.pure _
  | cons name rest ih =>
    unfold Transpile.usable
    split
    · exact ih
    · refine h.bind (h.uncallable? cfg _) fun why => h.bind ih fun ⟨found, later⟩ => ?_
      dsimp only
      split
      · exact h.pure _
      · split
        · exact h.pure _
        · exact h.pure _

include h in
lemma setterArgs (p : Place) (function : Api.FunctionInfo) (plan : SetterPlan) (v : Value) :
    P (Option (List Expr)) (Transpile.setterArgs cfg p function plan v) := by
  unfold Transpile.setterArgs
  cases plan with
  | action =>
    dsimp only
    split
    · exact h.pure _
    · exact h.pure _
    · exact h.pure _
    · exact h.fail _ _
  | whole selector => exact h.bind (h.format cfg p v _) fun _ => h.pure _
  | spread selector => exact h.bind (h.formatItems cfg p 0 _ _) fun _ => h.pure _

end

end FormatRules

/-- A property of steps with rules for what formatting is made of and for writing statements. -/
structure SetterRules (P : (α : Type) → Run α → Prop) : Prop extends FormatRules P where
  emit (s : Statement) : P Unit (emit s)

namespace SetterRules

variable {P : (α : Type) → Run α → Prop} (h : SetterRules P) (cfg : Settings) (e : Entity)
  (f : Frame) (at_ : Pointer)

include h in
lemma applySetter (key : Bytes) (raw : Value) :
    P Unit (Transpile.applySetter cfg e key raw f at_) := by
  unfold Transpile.applySetter
  refine h.bind (h.followVariables at_ _ raw f.scope) fun ⟨v, scope⟩ => ?_
  refine h.bind (h.usable cfg (setterNames e key)) fun ⟨setters, why⟩ => ?_
  dsimp only
  split
  · split
    · exact h.fail _ _
    · exact h.fail _ _
  · split
    · exact h.fail _ _
    · refine h.bind (h.setterArgs cfg _ _ _ _) fun args => ?_
      split
      · exact h.emit _
      · exact h.pure _

include h in
lemma emitGrid (grid : Grid) : P Grid (Transpile.emitGrid e grid) :=
  h.bind (h.emit _) fun _ => h.pure _

include h in
lemma gridTemplate (grid : Grid) (key : Bytes) (raw : Value) :
    P Grid (Transpile.gridTemplate cfg e grid key raw f at_) := by
  unfold Transpile.gridTemplate
  refine h.bind (h.followVariables at_ _ raw f.scope) fun ⟨v, scope⟩ => ?_
  dsimp only
  split
  · refine h.bind (h.formatItems cfg _ 0 _ _) fun entries => h.bind (h.staticArray _ _ _)
      fun name => ?_
    split_ifs
    · exact h.emitGrid e _
    · exact h.pure _
    · exact h.emitGrid e _
    · exact h.pure _
  · exact h.fail _ _

include h in
lemma finishGrid (grid : Grid) : P Unit (Transpile.finishGrid e grid) := by
  unfold Transpile.finishGrid
  split
  · exact h.bind (h.emitGrid e grid) fun _ => h.pure _
  · exact h.pure _

end SetterRules

end UiCodegen.Transpile
