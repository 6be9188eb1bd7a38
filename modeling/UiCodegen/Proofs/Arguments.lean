import UiCodegen.Proofs.Steps

/-!
# How many arguments a call gets

A plan says how the values of a document fill the parameters of a function: which of them the
document gives, whether the entity at hand comes first and whether a selector of zero comes last.
Plans are chosen by counting, so whichever is chosen, given and completed arguments together are as
many as the function has parameters.

The types of parameters are looked up by number.  The second half of this file repeats the functions
that do so with lookups that have no result where there is no such parameter, and shows that they
come to the same: no plan leads to a parameter that is not there.
-/

namespace UiCodegen.Api

lemma name_of_lastNamed? {α : Type} {nameOf : α → Bytes} {name : Bytes} {xs : List α} {x : α}
    (h : lastNamed? nameOf name xs = some x) : nameOf x = name := by
  rw [lastNamed?_eq_find?] at h
  simpa using List.find?_some h

lemma Index.function?_name {ix : Index} {name : Bytes} {f : FunctionInfo}
    (h : ix.function? name = some f) : f.name = name :=
  name_of_lastNamed? h

end UiCodegen.Api

namespace UiCodegen.Transpile

open Run

variable {cfg : Settings} {f : Api.FunctionInfo} {i : Nat} {p : Place} {st st' : State} {v : Value}
  {items : List Value} {plan : SetterPlan}

/-! ## Counting -/

/-- If an expression is a call, the function is one of the API and gets as many arguments as it
takes. -/
def Expr.Fits (cfg : Settings) : Expr → Prop
  | .call function args => ∃ f, cfg.index.function? function = some f ∧ args.length = f.arity
  | .text _ | .static _ | .entity _ | .registered .. | .compound .. => True

def CallPlan.added (plan : CallPlan) : Nat := plan.target.toNat + plan.selector.toNat

def SetterPlan.count (v : Value) : SetterPlan → Nat
  | .action => 0
  | .whole selector => 1 + selector.toNat
  | .spread selector => (itemsOf v).length + selector.toNat

lemma callPlan?_fits {count : Nat} {plan : CallPlan} (h : callPlan? cfg f count = some plan) :
    count + plan.added = f.arity := by
  unfold callPlan? at h
  split_ifs at h with hall htarget hselector
  · cases h
    simpa [CallPlan.added] using hall
  · cases h
    simp only [Bool.and_eq_true, beq_iff_eq] at htarget
    simpa [CallPlan.added] using htarget.1
  · cases h
    simp only [Bool.and_eq_true, beq_iff_eq] at hselector
    simpa [CallPlan.added] using hselector.1

lemma CallPlan.length_completed (plan : CallPlan) (e : Entity) (values : List Expr) :
    ((if plan.target then [Expr.entity e] else []) ++ values ++
      if plan.selector then [Expr.text "0"] else []).length = values.length + plan.added := by
  obtain ⟨target, selector⟩ := plan
  cases target <;> cases selector <;> simp [CallPlan.added]

/-- The plans by which a value that is no array is set. -/
lemma setterPlan?_single (hv : ∀ items, v ≠ .arr items) (h : setterPlan? cfg f v = some plan) :
    (plan = .action ∧ f.arity - 1 = 0) ∨ (plan = .whole false ∧ f.arity - 1 = 1) ∨
      (plan = .whole true ∧ f.arity - 1 = 2) := by
  unfold setterPlan? at h
  split at h
  · exact absurd rfl (hv _)
  · dsimp only at h
    split_ifs at h with hnone hone htwo
    · cases h
      exact .inl ⟨rfl, by simpa using hnone⟩
    · cases h
      exact .inr (.inl ⟨rfl, by simpa using hone⟩)
    · cases h
      simp only [Bool.and_eq_true, beq_iff_eq] at htwo
      exact .inr (.inr ⟨rfl, htwo.1⟩)

lemma setterPlan?_array (h : setterPlan? cfg f (.arr items) = some plan) :
    (∃ selector, plan = .whole selector ∧ f.arity - 1 = 1 + selector.toNat) ∨
      ∃ selector, plan = .spread selector ∧ f.arity - 1 = items.length + selector.toNat := by
  unfold setterPlan? at h
  dsimp only at h
  split_ifs at h with hwhole hspread hselector
  · cases h
    simp only [Bool.and_eq_true, Bool.or_eq_true, decide_eq_true_eq, beq_iff_eq] at hwhole
    refine .inl ⟨_, rfl, ?_⟩
    obtain hone | ⟨htwo, -⟩ := hwhole.2
    · simp [hone]
    · simp [htwo]
  · cases h
    simp only [Bool.and_eq_true, decide_eq_true_eq, beq_iff_eq] at hspread
    exact .inr ⟨false, rfl, by simpa using hspread.2.symm⟩
  · cases h
    simp only [Bool.and_eq_true, decide_eq_true_eq, beq_iff_eq] at hselector
    exact .inr ⟨true, rfl, by simpa using hselector.2.symm⟩

lemma setterPlan?_fits (h : setterPlan? cfg f v = some plan) : plan.count v = f.arity - 1 := by
  by_cases harray : ∃ items, v = .arr items
  · obtain ⟨items, rfl⟩ := harray
    obtain ⟨selector, rfl, hcount⟩ | ⟨selector, rfl, hcount⟩ := setterPlan?_array h
    · exact hcount.symm
    · exact hcount.symm
  · push Not at harray
    obtain ⟨rfl, hcount⟩ | ⟨rfl, hcount⟩ | ⟨rfl, hcount⟩ := setterPlan?_single harray h
    · exact hcount.symm
    · exact hcount.symm
    · exact hcount.symm

lemma length_formatItems {typeOf : Nat → Bytes}
    {es : List Expr} (h : (formatItems cfg p i items typeOf).outcome st = some (.ok es, st')) :
    es.length = items.length := by
  induction items generalizing i st st' es with
  | nil =>
    rw [formatItems] at h
    cases h
    rfl
  | cons item rest ih =>
    rw [formatItems] at h
    obtain ⟨e, st₁, -, h⟩ | ⟨_, -, he⟩ := outcome_bind_eq_some.1 h
    · obtain ⟨later, st₂, hlater, h⟩ | ⟨_, -, he⟩ := outcome_bind_eq_some.1 h
      · cases h
        rw [List.length_cons, List.length_cons, ih hlater]
      · cases he
    · cases he

lemma length_setterArgs (hplan : setterPlan? cfg f v = some plan) {args : List Expr}
    (h : (setterArgs cfg p f plan v).outcome st = some (.ok (some args), st')) :
    args.length = f.arity - 1 := by
  rw [← setterPlan?_fits hplan]
  have hzero : ∀ selector : Bool, (if selector then [Expr.text "0"] else []).length =
      selector.toNat := by
    intro selector
    cases selector <;> rfl
  cases plan with
  | action =>
    unfold setterArgs at h
    dsimp only at h
    split at h
    · cases h
      rfl
    · cases h
      rfl
    · cases h
    · cases h
  | whole selector =>
    obtain ⟨e, st₁, -, h⟩ | ⟨_, -, he⟩ := outcome_bind_eq_some.1 h
    · cases h
      rw [List.length_cons, hzero, SetterPlan.count, Nat.add_comm]
    · cases he
  | spread selector =>
    obtain ⟨es, st₁, hes, h⟩ | ⟨_, -, he⟩ := outcome_bind_eq_some.1 h
    · cases h
      rw [List.length_append, hzero, length_formatItems hes, SetterPlan.count]
    · cases he

lemma calledFunction_ok {name : Bytes}
    (h : (calledFunction cfg p name).outcome st = some (.ok f, st')) :
    cfg.index.function? name = some f ∧ f.name = name := by
  unfold calledFunction at h
  split at h
  · cases h
  · rename_i found hfound
    obtain ⟨why, st₁, -, h⟩ | ⟨_, -, he⟩ := outcome_bind_eq_some.1 h
    · split at h
      · cases h
      · cases h
        exact ⟨hfound, Api.Index.function?_name hfound⟩
    · cases he

/-- A nested call is one of the function that it names, with as many arguments as that has
parameters. -/
lemma formatCall_ok {function : Bytes} {args : List Value} {call : Expr}
    {result : Bytes}
    (h : (formatCall cfg p function args).outcome st = some (.ok (call, result), st')) :
    (∃ values, call = .call function values) ∧ call.Fits cfg := by
  rw [formatCall] at h
  obtain ⟨f, st₁, hf, h⟩ | ⟨_, -, he⟩ := outcome_bind_eq_some.1 h
  · obtain ⟨hfound, hname⟩ := calledFunction_ok hf
    cases hplan : callPlan? cfg f args.length with
    | none =>
      rw [hplan] at h
      cases h
    | some plan =>
      rw [hplan] at h
      obtain ⟨values, st₂, hvalues, h⟩ | ⟨_, -, he⟩ := outcome_bind_eq_some.1 h
      · cases h
        rw [hname]
        refine ⟨⟨_, rfl⟩, f, hfound, ?_⟩
        rw [plan.length_completed, length_formatItems hvalues, callPlan?_fits hplan]
      · cases he
  · cases he

/-! ## Functions that take a target -/

def TakesTarget (cfg : Settings) (f : Api.FunctionInfo) : Prop :=
  1 ≤ f.arity ∧ cfg.index.isTargetType (paramType f 0) = true

/-- Every function that may set an attribute stands on the ladder, is declared under its name and
takes a target. -/
lemma usable_ok {names : List Bytes} {setters : List Api.FunctionInfo}
    {why : Option Uncallable} (h : (usable cfg names).outcome st = some (.ok (setters, why), st')) :
    ∀ setter ∈ setters,
      setter.name ∈ names ∧ cfg.index.function? setter.name = some setter ∧
      TakesTarget cfg setter := by
  induction names generalizing st st' setters why with
  | nil =>
    cases h
    simp
  | cons name rest ih =>
    unfold usable at h
    split at h
    · exact fun setter hmem => (ih h setter hmem).imp_left (List.mem_cons_of_mem _)
    · rename_i f hfound
      obtain ⟨answer, st₁, -, h⟩ | ⟨e, -, he⟩ := outcome_bind_eq_some.1 h
      · obtain ⟨⟨later, whyLater⟩, st₂, hlater, h⟩ | ⟨e, -, he⟩ := outcome_bind_eq_some.1 h
        · have hrest :=
            fun setter hmem => (ih hlater setter hmem).imp_left (List.mem_cons_of_mem name)
          dsimp only at h
          split at h
          · cases h
            exact hrest
          · split at h
            · rename_i htarget
              cases h
              simp only [Bool.and_eq_true, decide_eq_true_eq] at htarget
              have hname := Api.Index.function?_name hfound
              refine List.forall_mem_cons.2 ⟨⟨?_, ?_, htarget⟩, hrest⟩
              · exact hname ▸ List.mem_cons_self
              · rw [hname, hfound]
            · cases h
              exact hrest
        · cases he
      · cases he

/-- The setter that is called was found for the attribute, and its plan was made for the value. -/
lemma findSome?_plan {setters : List Api.FunctionInfo} {f : Api.FunctionInfo}
    (h : (setters.findSome? fun setter => (setterPlan? cfg setter v).map fun plan =>
      (setter, plan)) =
      some (f, plan)) : f ∈ setters ∧ setterPlan? cfg f v = some plan := by
  obtain ⟨setter, hmem, hsetter⟩ := List.exists_of_findSome?_eq_some h
  obtain ⟨found, hfound, heq⟩ := Option.map_eq_some_iff.1 hsetter
  cases heq
  exact ⟨hmem, hfound⟩

/-! ## Lookups of parameters -/

/-- The type of parameter number `i`, if there is such a parameter. -/
def paramType? (f : Api.FunctionInfo) (i : Nat) : Option Bytes := (f.params[i]?).map (·.ctype)

lemma paramType?_eq (h : i < f.arity) : paramType? f i = some (paramType f i) := by
  have hparam : f.params[i]? = some f.params[i] := List.getElem?_eq_getElem h
  simp [paramType?, paramType, hparam]

/-- A value that is there; the steps come to nothing if it is not. -/
def Run.need {α : Type} (found : Option α) :
    Run α := ExceptT.mk fun st => found.map fun a => (.ok a, st)

lemma need_some {α : Type} (a : α) : Run.need (some a) = pure a := rfl

/-- `callPlan?` with lookups that may find no parameter. -/
def checkedCallPlan (cfg : Settings) (f : Api.FunctionInfo) (count : Nat) :
    Option (Option CallPlan) :=
  if count == f.arity then some (some {})
  else if count + 1 == f.arity then do
    let first ← paramType? f 0
    if cfg.index.isTargetType first then some (some { target := true })
    else if hasSelector f then some (some { selector := true })
    else some none
  else some none

lemma checkedCallPlan_eq (count : Nat) :
    checkedCallPlan cfg f count = some (callPlan? cfg f count) := by
  unfold checkedCallPlan callPlan?
  by_cases hall : count = f.arity
  · simp [hall]
  by_cases hone : count + 1 = f.arity
  · have hfirst : paramType? f 0 = some (paramType f 0) := paramType?_eq (by omega)
    simp only [hfirst, hone, Option.bind_eq_bind, Option.bind_some]
    split_ifs <;> simp_all
  · simp [hall, hone]

/-- `setterPlan?` with lookups that may find no parameter. -/
def checkedSetterPlan (cfg : Settings) (f : Api.FunctionInfo) (v : Value) :
    Option (Option SetterPlan) :=
  let open_ := f.arity - 1
  let selector := hasSelector f
  match v with
  | .arr items => do
    let whole ← if 1 ≤ open_ then (paramType? f 1).map (takesWhole cfg) else some false
    if whole && (open_ == 1 || (open_ == 2 && selector)) then some (some (.whole (open_ == 2)))
    else if 1 < open_ && items.length == open_ then some (some (.spread false))
    else if selector && 1 ≤ items.length && items.length + 1 == open_ then
      some (some (.spread true))
    else some none
  | _ =>
    if open_ == 0 then some (some .action)
    else if open_ == 1 then some (some (.whole false))
    else if open_ == 2 && selector then some (some (.whole true))
    else some none

lemma checkedSetterPlan_eq (v : Value) :
    checkedSetterPlan cfg f v = some (setterPlan? cfg f v) := by
  unfold checkedSetterPlan setterPlan?
  cases v with
  | arr items =>
    dsimp only
    by_cases hopen : 1 ≤ f.arity - 1
    · have hsecond : paramType? f 1 = some (paramType f 1) := paramType?_eq (by omega)
      simp only [hopen, if_true, hsecond, Option.map_some, Option.bind_eq_bind, Option.bind_some,
        decide_true, Bool.true_and]
      split_ifs <;> rfl
    · simp only [hopen, if_false, Option.bind_eq_bind, Option.bind_some, decide_false,
        Bool.false_and]
      split_ifs <;> simp_all
  | _ =>
    dsimp only
    split_ifs <;> rfl

/-- `formatItems` with lookups that may find no parameter. -/
def checkedItems (cfg : Settings) (p : Place) (typeOf : Nat → Option Bytes) (i : Nat) :
    List Value → Run (List Expr)
  | [] => pure []
  | item :: rest => do
    let ctype ← Run.need (typeOf i)
    let e ← format cfg (p.index i) item ctype
    let es ← checkedItems cfg p typeOf (i + 1) rest
    pure (e :: es)

lemma checkedItems_eq (p : Place) {typeOf : Nat → Option Bytes} {typeOf' : Nat → Bytes}
    (h : ∀ j, i ≤ j → j < i + items.length → typeOf j = some (typeOf' j)) :
    checkedItems cfg p typeOf i items = formatItems cfg p i items typeOf' := by
  induction items generalizing i with
  | nil =>
    rw [formatItems]
    rfl
  | cons item rest ih =>
    have hfirst : typeOf i = some (typeOf' i) := h i (Nat.le_refl i) (by simp)
    have hrest : checkedItems cfg p typeOf (i + 1) rest = formatItems cfg p (i + 1) rest typeOf' :=
      ih fun j hle hlt => h j (by omega) (by rw [List.length_cons]; omega)
    rw [formatItems, checkedItems, hfirst, need_some, pure_bind, hrest]

/-- `usable` with lookups that may find no parameter. -/
def checkedUsable (cfg : Settings) : List Bytes → Run (List Api.FunctionInfo × Option Uncallable)
  | [] => pure ([], none)
  | name :: rest =>
    match cfg.index.function? name with
    | none => checkedUsable cfg rest
    | some f => do
      let why ← uncallable? cfg f
      let (fs, later) ← checkedUsable cfg rest
      match why with
      | some why => pure (fs, some why)
      | none =>
        if f.arity < 1 then pure (fs, later)
        else
          let first ← Run.need (paramType? f 0)
          if cfg.index.isTargetType first then pure (f :: fs, later) else pure (fs, later)

lemma checkedUsable_eq (names : List Bytes) : checkedUsable cfg names = usable cfg names := by
  induction names with
  | nil => rfl
  | cons name rest ih =>
    unfold checkedUsable usable
    cases hfound : cfg.index.function? name with
    | none => exact ih
    | some f =>
      dsimp only
      rw [ih]
      refine bind_congr fun why => bind_congr fun ⟨fs, later⟩ => ?_
      cases why with
      | some why => rfl
      | none =>
        dsimp only
        by_cases harity : f.arity < 1
        · simp [harity]
        · have hfirst : paramType? f 0 = some (paramType f 0) := paramType?_eq (by omega)
          have hle : 1 ≤ f.arity := by omega
          rw [if_neg harity, hfirst, need_some, pure_bind]
          simp [hle]

/-- `setterArgs` with lookups that may find no parameter. -/
def checkedSetterArgs (cfg : Settings) (p : Place) (f : Api.FunctionInfo) (plan : SetterPlan)
    (v : Value) : Run (Option (List Expr)) :=
  let zero (selector : Bool) : List Expr := if selector then [.text "0"] else []
  match plan with
  | .action => setterArgs cfg p f .action v
  | .whole selector => do
    let ctype ← Run.need (paramType? f 1)
    let e ← format cfg p v ctype
    pure (some (e :: zero selector))
  | .spread selector => do
    let es ← checkedItems cfg p (fun i => paramType? f (i + 1)) 0 (itemsOf v)
    pure (some (es ++ zero selector))

lemma checkedSetterArgs_eq (p : Place) (h : setterPlan? cfg f v = some plan) :
    checkedSetterArgs cfg p f plan v = setterArgs cfg p f plan v := by
  have hcount := setterPlan?_fits h
  cases plan with
  | action => rfl
  | whole selector =>
    have hsecond : paramType? f 1 = some (paramType f 1) :=
      paramType?_eq (by simp only [SetterPlan.count] at hcount; omega)
    simp only [checkedSetterArgs, setterArgs, hsecond, need_some, pure_bind]
  | spread selector =>
    have hitems : ∀ j, 0 ≤ j → j < 0 + (itemsOf v).length → paramType? f (j + 1) =
        some (paramType f (j + 1)) :=
      fun j _ hlt => paramType?_eq (by simp only [SetterPlan.count] at hcount; omega)
    simp only [checkedSetterArgs, setterArgs, checkedItems_eq p hitems]

/-- `formatCall` with lookups that may find no parameter. -/
def checkedCall (cfg : Settings) (p : Place) (function : Bytes) (args : List Value) :
    Run (Expr × Bytes) := do
  let f ← calledFunction cfg p function
  match ← Run.need (checkedCallPlan cfg f args.length) with
  | none => fail (.argumentCount f.name f.arity args.length) p.at_
  | some plan =>
    let base := if p.arrayBase.isEmpty then C.identifier f.name ++ "_arg" else p.arrayBase
    let inner : Place := { p with at_ := p.at_.key "args", function := f.name, arrayBase := base }
    let skipped := if plan.target then 1 else 0
    let values ← checkedItems cfg inner (fun i => paramType? f (i + skipped)) 0 args
    let first := if plan.target then [Expr.entity p.entity] else []
    let last := if plan.selector then [Expr.text "0"] else []
    pure (.call f.name (first ++ values ++ last), f.result)

lemma checkedCall_eq (p : Place) (function : Bytes) (args : List Value) :
    checkedCall cfg p function args = formatCall cfg p function args := by
  unfold checkedCall
  rw [formatCall]
  refine bind_congr fun f => ?_
  rw [checkedCallPlan_eq, need_some, pure_bind]
  cases hplan : callPlan? cfg f args.length with
  | none => rfl
  | some plan =>
    have hcount := callPlan?_fits hplan
    have hitems : ∀ j, 0 ≤ j → j < 0 + args.length →
        paramType? f (j + if plan.target then 1 else 0) = some
          (paramType f (j + if plan.target then 1 else 0)) := by
      intro j _ hlt
      refine paramType?_eq ?_
      cases htarget : plan.target with
      | false =>
        simp only [Bool.false_eq_true, if_false]
        omega
      | true =>
        simp only [CallPlan.added, htarget, Bool.toNat_true] at hcount
        simp only [if_true]
        omega
    dsimp only
    rw [checkedItems_eq _ hitems]

end UiCodegen.Transpile
