import UiCodegen.Proofs.Effects
import UiCodegen.Proofs.Formatting

/-!
# Every outcome is reached by effects

The steps of a run are traced from a state: whatever they come to, the state they leave results from
the first by elementary effects, and a result has a property in the state that is left.  The
entities that steps are handed have to be declared when they begin; what is declared stays so, and
registered entities are declared.  The instances inside a node are traced by induction over them.
-/

namespace UiCodegen.Transpile

variable {st : State} {cfg : Settings} {p : Place} {st' : State} {node : Fields} {items : List Expr}

namespace Run

variable {α β : Type} {cfg : Settings} {st st' : State} {Q : α → State → Prop} {a : α} {x : Run α}

/-- Every outcome of the steps in a state is reached by effects, and its result has the property `Q`
in the state that is left. -/
def Traces (cfg : Settings) (st : State) (x : Run α) (Q : α → State → Prop) : Prop :=
  ∀ r st', x.outcome st = some (r, st') → History cfg st st' ∧ ∀ a, r = .ok a → Q a st'

lemma traces_of_outcome (hx : x.outcome st = some (.ok a, st')) (h : History cfg st st')
    (hQ : Q a st') : x.Traces cfg st Q := by
  intro r st'' hr
  rw [hx] at hr
  cases hr
  refine ⟨h, fun b hb => ?_⟩
  cases hb
  exact hQ

lemma traces_effect (after : State) (hx : x.outcome st = some (.ok a, after))
    (h : Effect cfg st after) (hQ : Q a after) : x.Traces cfg st Q :=
  traces_of_outcome hx (.single h) hQ

lemma traces_pure (hQ : Q a st) : (pure a : Run α).Traces cfg st Q := traces_of_outcome rfl .refl hQ

lemma traces_throw (e : Fault) : (throw e : Run α).Traces cfg st Q := by
  rintro r st' ⟨⟩
  exact ⟨.refl, fun a ha => by cases ha⟩

lemma Decided.traces {x : Run α} (hx : x.Decided) : x.Traces cfg st fun _ _ => True := by
  obtain ⟨a, rfl⟩ | ⟨fault, rfl⟩ := hx
  · exact traces_pure trivial
  · exact traces_throw fault

lemma traces_modify {f : State → State} (h : Effect cfg st (f st)) :
    (modify f : Run Unit).Traces cfg st fun _ st' => st' = f st :=
  traces_effect (f st) rfl h rfl

lemma traces_get_bind {k : State → Run α} (h : (k st).Traces cfg st Q) :
    ((get : Run State) >>= k).Traces cfg st Q := by
  intro r st' hr
  rw [outcome_bind, outcome_get] at hr
  exact h r st' hr

lemma Traces.mono {P : α → State → Prop} (hx : x.Traces cfg st P)
    (h : ∀ a st', History cfg st st' → P a st' → Q a st') : x.Traces cfg st Q := by
  intro r st' hr
  obtain ⟨hhistory, hP⟩ := hx r st' hr
  exact ⟨hhistory, fun a ha => h a st' hhistory (hP a ha)⟩

/-- What is known of results by other means can be added. -/
lemma Traces.with_ok {R : α → Prop} (hx : x.Traces cfg st Q)
    (h : ∀ a st', x.outcome st = some (.ok a, st') → R a) :
    x.Traces cfg st fun a st' => Q a st' ∧ R a := by
  intro r st' hr
  obtain ⟨hhistory, hQ⟩ := hx r st' hr
  refine ⟨hhistory, ?_⟩
  rintro a rfl
  exact ⟨hQ a rfl, h a st' hr⟩

lemma Traces.bind {k : α → Run β} {P : α → State → Prop} {Q : β → State → Prop}
    (hx : x.Traces cfg st P) (hk : ∀ a st', History cfg st st' → P a st' → (k a).Traces cfg st' Q) :
    (x >>= k).Traces cfg st Q := by
  intro r st' hr
  obtain ⟨a, st₁, hfirst, hsecond⟩ | ⟨e, hfirst, rfl⟩ := outcome_bind_eq_some.1 hr
  · obtain ⟨hhistory, hP⟩ := hx _ _ hfirst
    obtain ⟨hhistory', hQ⟩ := hk a st₁ hhistory (hP a rfl) r st' hsecond
    exact ⟨hhistory.trans hhistory', hQ⟩
  · exact ⟨(hx _ _ hfirst).1, fun a ha => by cases ha⟩

lemma Traces.recover {x : Run α} {otherwise : α} (hx : x.Traces cfg st Q)
    (hQ : ∀ st', History cfg st st' → Q otherwise st') : (recover otherwise x).Traces cfg st Q := by
  intro r st' hr
  rw [outcome_recover] at hr
  match houtcome : x.outcome st with
  | none => simp [houtcome] at hr
  | some (.ok a, st₁) =>
    rw [houtcome] at hr
    exact hx r st' (houtcome.trans hr)
  | some (.error (.violation v at_), st₁) =>
    rw [houtcome] at hr
    exact hx r st' (houtcome.trans hr)
  | some (.error (.problem p at_), st₁) =>
    simp only [houtcome, Option.some.injEq, Prod.mk.injEq] at hr
    obtain ⟨rfl, rfl⟩ := hr
    have hhistory : History cfg st (st₁.reported p at_) := (hx _ _ houtcome).1.tail (.report p at_)
    refine ⟨hhistory, fun a ha => ?_⟩
    cases ha
    exact hQ _ hhistory

end Run

open Run

/-! ## Static objects and remembered answers -/

section

variable {cfg : Settings} {st : State}

lemma outcome_uniqueName (base : Bytes) :
    (uniqueName base).outcome st = some (.ok (nameOfRequest base (st.requests base + 1)),
      { st with asked := (base, st.requests base + 1) :: st.asked }) := by
  have hname : (if st.requests base == 0 then base else numbered base (st.requests base + 1)) =
      nameOfRequest base (st.requests base + 1) := by
    simp [nameOfRequest]
  rw [← hname]
  rfl

lemma outcome_staticArray (base elemType : Bytes) (items : List Expr) :
      (staticArray base elemType items).outcome st =
      some (.ok (nameOfRequest base (st.requests base + 1)), st.withArray base elemType items) := by
  rw [staticArray, outcome_bind, outcome_uniqueName]
  rfl

lemma traces_staticArray {base : Bytes} (hbase : ArrayBase base) (elemType : Bytes)
    (hitems : ∀ e ∈ items, st.Admits cfg e) :
    (staticArray base elemType items).Traces cfg st fun name st' =>
      name ∈ st'.definitions.map Definition.name :=
  traces_effect _ (outcome_staticArray base elemType items) (.array hbase elemType hitems)
    List.mem_cons_self

lemma traces_internString (hst : st.Sound cfg) (text : Bytes) :
    (internString text).Traces cfg st fun name st' =>
    name ∈ st'.definitions.map Definition.name := by
  refine traces_get_bind ?_
  split
  · rename_i name hname
    exact traces_pure (hst.strings _ (mem_of_lookup hname))
  · exact traces_effect (st.withString text) rfl (.string text) List.mem_cons_self

lemma traces_declareLookup (hst : st.Sound cfg) :
    declareLookup.Traces cfg st fun _ st' => .registryLookup ∈ st'.definitions := by
  refine traces_get_bind ?_
  split
  · rename_i hnew
    exact traces_effect st.withLookup rfl (.lookup (by simpa using hnew)) List.mem_cons_self
  · rename_i hdeclared
    exact traces_pure (hst.lookup (by simpa using hdeclared))

/-- An answer that is remembered is given again; any other is found out and remembered. -/
lemma outcome_uncallable? (cfg : Settings) (f : Api.FunctionInfo) (st : State) :
      (uncallable? cfg f).outcome st = match st.callable.lookup f.name with
      | some answer => some (.ok answer, st)
      | none => some (.ok ((verdict cfg f).run st.sizes).1,
          { st with
            callable := (f.name, ((verdict cfg f).run st.sizes).1) :: st.callable
            sizes := ((verdict cfg f).run st.sizes).2 }) := by
  rw [uncallable?, outcome_bind, outcome_get]
  dsimp only
  cases st.callable.lookup f.name with
  | some answer => rfl
  | none =>
    unfold verdict
    by_cases hallows : cfg.filter.allows f.name
    · simp only [hallows, if_true]
      rfl
    · simp only [hallows]
      rfl

lemma traces_uncallable? {f : Api.FunctionInfo} (hf : cfg.index.function? f.name = some f) :
    (uncallable? cfg f).Traces cfg st fun _ _ => True := by
  have houtcome := outcome_uncallable? cfg f st
  cases hlookup : st.callable.lookup f.name with
  | some answer =>
    rw [hlookup] at houtcome
    exact traces_of_outcome houtcome .refl trivial
  | none =>
    rw [hlookup] at houtcome
    exact traces_effect _ houtcome (.remember (.answer hf) st.log) trivial

lemma traces_warn (p : Problem) (at_ : Pointer) : (warn p at_).Traces cfg st fun _ _ => True :=
  traces_effect _ (outcome_warn st p at_) (.report p at_) trivial

end

/-! ## Values -/

/-- The entity of a place is declared, and arrays made for it get a proper name. -/
structure Place.Proper (cfg : Settings) (st : State) (p : Place) : Prop where
  entity : st.Declares cfg p.entity
  base : p.arrayBase = [] ∨ ArrayBase p.arrayBase

lemma Place.Proper.history (hp : p.Proper cfg st) (h : History cfg st st') : p.Proper cfg st' :=
  ⟨hp.entity.mono h.extends, hp.base⟩

lemma Place.Proper.arrayBase {cfg : Settings} {st : State} {p : Place} (hp : p.Proper cfg st)
    {base : Bytes}
    (hbase : ArrayBase base) : ArrayBase (if p.arrayBase.isEmpty then base else p.arrayBase) := by
  obtain hempty | hproper := hp.base
  · simpa [hempty] using hbase
  · split
    · exact hbase
    · exact hproper

lemma Run.Literal.traces {x : Run Expr} (hx : x.Literal) :
    x.Traces cfg st fun e st' => st'.Admits cfg e := by
  obtain ⟨text, rfl⟩ | ⟨problem, at_, rfl⟩ := hx
  · exact traces_pure (admits_text text)
  · exact traces_throw (.problem problem at_)

lemma admits_closeTemplate
    (hitems : ∀ e ∈ items, st.Admits cfg e) : ∀ e ∈ closeTemplate items, st.Admits cfg e := by
  unfold closeTemplate
  split
  · exact hitems
  · intro e he
    obtain he | he := List.mem_append.1 he
    · exact hitems e he
    · obtain rfl := List.mem_singleton.1 he
      exact admits_text _

lemma traces_formatRef (hst : st.Sound cfg) (p : Place) (name ctype : Bytes)
    (info : Api.TypeInfo) :
    (formatRef p name ctype info).Traces cfg st fun e st' => st'.Admits cfg e := by
  unfold formatRef
  split
  · exact traces_throw _
  refine traces_get_bind ?_
  split
  · rename_i e he
    exact traces_pure (admits_entity (hst.of_resolve? he).1)
  · exact (traces_warn _ _).bind fun _ st₁ h₁ _ => (traces_declareLookup (h₁.sound hst)).bind
      fun _ _ _ hlookup =>
      traces_pure (admits_registered hlookup _ _ _)

lemma traces_formatString (hst : st.Sound cfg) (p : Place) (s ctype : Bytes)
    (info : Api.TypeInfo) :
    (formatString cfg p s ctype info).Traces cfg st fun e st' => st'.Admits cfg e := by
  unfold formatString
  split
  · exact traces_formatRef hst p _ ctype info
  · split
    · exact (traces_internString hst _).bind fun name _ _ hname => traces_pure (admits_static hname)
    · exact traces_throw _
  · split
    · exact traces_pure (admits_text _)
    · exact traces_throw _
  · exact (literal_formatColor p _ ctype info).traces
  · exact (literal_formatPercent p _ ctype info).traces
  · exact (literal_formatIdent cfg p _ ctype info).traces
  · exact traces_throw _

lemma traces_calledFunction (p : Place) (name : Bytes) :
    (calledFunction cfg p name).Traces cfg st fun _ _ => True := by
  unfold calledFunction
  split
  · exact traces_throw _
  · rename_i function hfunction
    have hf := Api.Index.function?_name hfunction
    refine (traces_uncallable? (by rw [hf, hfunction])).bind fun why _ _ _ => ?_
    split
    · exact traces_throw _
    · exact traces_pure trivial

mutual

/-- The induction is the one that formatting itself ends by. -/
lemma traces_format {cfg : Settings} {st : State} (hst : st.Sound cfg) {p : Place}
    (hp : p.Proper cfg st)
    (v : Value) (ctype : Bytes) :
    (format cfg p v ctype).Traces cfg st fun e st' => st'.Admits cfg e := by
  unfold format
  cases v with
  | null => exact (literal_formatNull p ctype _).traces
  | bool b => exact (literal_formatBool p b ctype _).traces
  | num literal => exact (literal_formatNumber p literal ctype _).traces
  | str s =>
    dsimp only
    split
    · split
      · rename_i bound outer hbound
        have : outer.length < p.scope.length := Scope.length_lookup?_lt hbound
        exact traces_format hst (p := { p with scope := outer }) ⟨hp.entity, hp.base⟩ bound ctype
      · exact traces_throw _
    · exact traces_formatString hst p s ctype _
  | arr items =>
    dsimp only
    -- A record is written in the same way whether its type is that of colours or another.
    have hrecord : ∀ (name : Bytes) (typeOf : Nat → Bytes), Run.Traces cfg st (do
        let values ← formatItems cfg p 0 items typeOf
        pure (.compound name (values.map fun e => ([], e)))) fun e st' => st'.Admits cfg e := by
      intro name typeOf
      refine (traces_formatItems hst hp 0 items typeOf).bind fun values st₁ h₁ hvalues => ?_
      refine traces_pure (admits_compound fun part hpart => ?_)
      obtain ⟨e, he, rfl⟩ := List.mem_map.1 hpart
      exact hvalues e he
    split
    · refine (traces_formatItems hst hp 0 items _).bind fun values st₁ h₁ hvalues => ?_
      refine (traces_staticArray ((hp.history h₁).arrayBase .plain) _ ?_).bind
        fun name st₂ h₂ hname =>
        traces_pure (admits_static hname)
      split
      · exact admits_closeTemplate hvalues
      · exact hvalues
    · split
      · exact traces_throw _
      · split
        · exact traces_throw _
        · exact hrecord _ _
    · split
      · exact traces_throw _
      · split
        · exact traces_throw _
        · exact hrecord _ _
    · exact traces_throw _
  | obj fields =>
    dsimp only
    split
    · exact traces_throw _
    · rename_i function args hcall
      have : sizeOf args < 1 + sizeOf fields := sizeOf_callArgs_lt hcall
      refine (traces_formatCall hst hp function args).bind fun call st₁ h₁ hadmits => ?_
      split
      · exact traces_throw _
      · exact traces_pure hadmits
    · split
      · split
        · exact traces_throw _
        · exact (traces_formatFields hst hp ctype _ fields).bind fun parts st₁ h₁ hparts =>
            traces_pure (admits_compound hparts)
      · exact traces_throw _
termination_by (p.scope.length, sizeOf v, 0)

lemma traces_formatItems {cfg : Settings} {st : State} (hst : st.Sound cfg) {p : Place}
    (hp : p.Proper cfg st) (i : Nat) (items : List Value) (typeOf : Nat → Bytes) :
    (formatItems cfg p i items typeOf).Traces cfg st fun es st' => ∀ e ∈ es, st'.Admits cfg e := by
  unfold formatItems
  match items with
  | [] => exact traces_pure (by simp)
  | item :: rest =>
    refine (traces_format hst (p := p.index i) ⟨hp.entity, hp.base⟩ item (typeOf i)).bind
      fun e st₁ h₁ he => ?_
    refine (traces_formatItems (h₁.sound hst) (hp.history h₁) (i + 1) rest typeOf).bind
      fun es st₂ h₂ hes => ?_
    exact traces_pure (List.forall_mem_cons.2 ⟨he.mono h₂.extends, hes⟩)
termination_by (p.scope.length, sizeOf items, 0)

lemma traces_formatFields {cfg : Settings} {st : State} (hst : st.Sound cfg) {p : Place}
    (hp : p.Proper cfg st)
    (ctype : Bytes) (record : Api.StructRecord) (fields : List (Bytes × Value)) :
    (formatFields cfg p ctype record fields).Traces cfg st fun parts st' =>
      ∀ part ∈ parts, st'.Admits cfg part.2 := by
  unfold formatFields
  match fields with
  | [] => exact traces_pure (by simp)
  | (key, v) :: rest =>
    dsimp only
    split
    · exact traces_throw _
    · refine (traces_format hst (p := p.key key) ⟨hp.entity, hp.base⟩ v _).bind fun e st₁ h₁ he =>
        ?_
      refine (traces_formatFields (h₁.sound hst) (hp.history h₁) ctype record rest).bind
        fun es st₂ h₂ hes => ?_
      exact traces_pure (List.forall_mem_cons.2 ⟨he.mono h₂.extends, hes⟩)
termination_by (p.scope.length, sizeOf fields, 0)

lemma traces_formatCall {cfg : Settings} {st : State} (hst : st.Sound cfg) {p : Place}
    (hp : p.Proper cfg st) (function : Bytes) (args : List Value) :
    (formatCall cfg p function args).Traces cfg st fun call st' => st'.Admits cfg call.1 := by
  -- The arguments are admitted one by one; that there are as many as there have to be is known of
  -- every call.
  have hargs : (formatCall cfg p function args).Traces cfg st fun call st' =>
      ∃ function values, call.1 = .call function values ∧ ∀ e ∈ values, st'.Admits cfg e := by
    unfold formatCall
    refine (traces_calledFunction p function).bind fun f st₁ h₁ _ => ?_
    split
    · exact traces_throw _
    · have hinner : Place.Proper cfg st₁ { p with
          at_ := p.at_.key "args", function := f.name
          arrayBase := if p.arrayBase.isEmpty then C.identifier f.name ++ "_arg"
            else p.arrayBase } :=
        ⟨(hp.history h₁).entity, .inr (hp.arrayBase (.argument f.name))⟩
      refine (traces_formatItems (h₁.sound hst) hinner 0 args _).bind fun values st₂ h₂ hvalues =>
        ?_
      refine traces_pure ⟨_, _, rfl, fun e he => ?_⟩
      simp only [List.mem_append] at he
      obtain (hfirst | hvalue) | hlast := he
      · split at hfirst
        · obtain rfl := List.mem_singleton.1 hfirst
          exact admits_entity ((hp.history h₁).history h₂).entity
        · cases hfirst
      · exact hvalues e hvalue
      · split at hlast
        · obtain rfl := List.mem_singleton.1 hlast
          exact admits_text _
        · cases hlast
  refine (hargs.with_ok (R := fun call => call.1.Fits cfg) fun _ _ hr => (formatCall_ok hr).2).mono
    ?_
  rintro ⟨_, result⟩ st' - ⟨⟨function, values, rfl, hvalues⟩, hfits⟩
  exact admits_call hfits hvalues
termination_by (p.scope.length, sizeOf args, 1)

end

/-! ## Attributes -/

section

variable {cfg : Settings} {st : State} {g : Grid} {e : Entity}

lemma traces_deref (v : Value) (s : Scope) (at_ : Pointer) :
    (deref v s at_).Traces cfg st fun _ _ => True := by
  unfold deref
  generalize maxVariables = steps
  induction steps generalizing v s with
  | zero => exact traces_throw _
  | succ steps ih =>
    unfold followVariables
    split
    · split
      · split
        · exact ih _ _
        · exact traces_throw _
      · exact traces_pure trivial
    · exact traces_pure trivial

lemma traces_usable (names : List Bytes) : (usable cfg names).Traces cfg st fun _ _ => True := by
  induction names generalizing st with
  | nil => exact traces_pure trivial
  | cons name rest ih =>
    unfold usable
    split
    · exact ih
    · rename_i function hfunction
      have hf := Api.Index.function?_name hfunction
      refine (traces_uncallable? (by rw [hf, hfunction])).bind fun why _ _ _ =>
        ih.bind fun ⟨found, later⟩ _ _ _ => ?_
      dsimp only
      split
      · exact traces_pure trivial
      · split
        · exact traces_pure trivial
        · exact traces_pure trivial

lemma traces_setterArgs (hst : st.Sound cfg) (hp : p.Proper cfg st) (f : Api.FunctionInfo)
    (plan : SetterPlan) (v : Value) :
    (setterArgs cfg p f plan v).Traces cfg st fun result st' => ∀ args ∈ result, ∀ e ∈ args,
    st'.Admits cfg e := by
  have hzero : ∀ (selector : Bool) (st' : State), ∀ e ∈ (if selector then [Expr.text "0"] else []),
      st'.Admits cfg e := by
    intro selector st' e he
    split at he
    · obtain rfl := List.mem_singleton.1 he
      exact admits_text _
    · cases he
  cases plan with
  | action =>
    unfold setterArgs
    dsimp only
    split
    · exact traces_pure (by simp)
    · exact traces_pure (by simp)
    · exact traces_pure (by simp)
    · exact traces_throw _
  | whole selector =>
    refine (traces_format hst hp v _).bind fun e st₁ h₁ he => traces_pure fun args hargs => ?_
    cases hargs
    exact List.forall_mem_cons.2 ⟨he, hzero selector st₁⟩
  | spread selector =>
    refine (traces_formatItems hst hp 0 _ _).bind fun es st₁ h₁ hes => traces_pure fun args hargs =>
      ?_
    cases hargs
    exact List.forall_mem_append.2 ⟨hes, hzero selector st₁⟩

lemma traces_applySetter (hst : st.Sound cfg) (he : st.Declares cfg e) (hname : IsNumbered e.cname)
    (key : Bytes) (raw : Value) (f : Frame) (at_ : Pointer) :
    (applySetter cfg e key raw f at_).Traces cfg st fun _ _ => True := by
  unfold applySetter
  refine (traces_deref raw f.scope at_).bind fun ⟨v, scope⟩ st₁ h₁ _ => ?_
  refine ((traces_usable (setterNames e key)).with_ok (R := fun found => ∀ setter ∈ found.1,
    cfg.index.function? setter.name = some setter ∧ TakesTarget cfg setter)
      fun _ _ hr setter hmem => (usable_ok hr setter hmem).2).bind
      fun ⟨setters, why⟩ st₂ h₂ ⟨_, hsetters⟩ => ?_
  dsimp only
  split
  · split
    · exact traces_throw _
    · exact traces_throw _
  · split
    · exact traces_throw _
    · rename_i setter plan hfound
      obtain ⟨hmem, hplan⟩ := findSome?_plan hfound
      obtain ⟨hfunction, harity, -⟩ := hsetters setter hmem
      have hhistory : History cfg st st₂ := h₁.trans h₂
      have hdeclared : st₂.Declares cfg e := he.mono hhistory.extends
      have hplace : Place.Proper cfg st₂ {
          scope, path := f.path, entity := e, at_, arrayBase := e.cname ++ "_" ++ C.identifier key,
          function := setter.name } :=
        ⟨hdeclared, .inr (.entity hname _)⟩
      refine ((traces_setterArgs (hhistory.sound hst) hplace setter plan v).with_ok
        (R := fun result => ∀ args, result = some args → args.length = setter.arity - 1)
          fun _ _ hr args hargs => length_setterArgs hplan (hargs ▸ hr)).bind
            fun result st₃ h₃ hresult => ?_
      split
      · rename_i args
        have hcall : st₃.Admits cfg (.call setter.name (.entity e :: args)) := by
          refine admits_call ⟨setter, hfunction, ?_⟩
            (List.forall_mem_cons.2 ⟨?_, hresult.1 args rfl⟩)
          · rw [List.length_cons, hresult.2 args rfl]
            omega
          · exact admits_entity (hdeclared.mono h₃.extends)
        exact (traces_modify (.call hcall)).mono fun _ _ _ _ => trivial
      · exact traces_pure trivial

/-! ## Grids -/

/-- The arrays that a grid names are defined. -/
structure Grid.Defined (st : State) (g : Grid) : Prop where
  cols : ∀ name ∈ g.cols, name ∈ st.definitions.map Definition.name
  rows : ∀ name ∈ g.rows, name ∈ st.definitions.map Definition.name

lemma Grid.Defined.history (hg : g.Defined st) (h : History cfg st st') : g.Defined st' :=
  ⟨fun name hname => List.map_subset _ h.extends.definitions (hg.cols name hname),
    fun name hname => List.map_subset _ h.extends.definitions (hg.rows name hname)⟩

lemma traces_emitGrid (he : st.Declares cfg e) (hg : g.Defined st) :
    (emitGrid e g).Traces cfg st fun g' st' => g'.Defined st' :=
  traces_effect { st with body := gridCall e g :: st.body } rfl (.grid he hg.cols hg.rows)
    ⟨hg.cols, hg.rows⟩

lemma traces_finishGrid (he : st.Declares cfg e) (hg : g.Defined st) :
    (finishGrid e g).Traces cfg st fun _ _ => True := by
  unfold finishGrid
  split
  · exact (traces_emitGrid he hg).bind fun _ _ _ _ => traces_pure trivial
  · exact traces_pure trivial

lemma traces_gridTemplate (hst : st.Sound cfg) (he : st.Declares cfg e) (hname : IsNumbered e.cname)
    (hg : g.Defined st) (key : Bytes) (raw : Value) (f : Frame) (at_ : Pointer) :
    (gridTemplate cfg e g key raw f at_).Traces cfg st fun g' st' => g'.Defined st' := by
  unfold gridTemplate
  refine (traces_deref raw f.scope at_).bind fun ⟨v, scope⟩ st₁ h₁ _ => ?_
  dsimp only
  split
  · have hplace : Place.Proper cfg st₁ { scope, path := f.path, entity := e, at_ } :=
      ⟨he.mono h₁.extends, .inl rfl⟩
    refine (traces_formatItems (h₁.sound hst) hplace 0 _ _).bind fun entries st₂ h₂ hentries => ?_
    refine (traces_staticArray (.entity hname key) templateType
      (admits_closeTemplate hentries)).bind fun name st₃ h₃ hdefined => ?_
    have hhistory : History cfg st st₃ := h₁.trans (h₂.trans h₃)
    have hgrid := hg.history hhistory
    have hwrite : ∀ g' : Grid, g'.Defined st₃ → Run.Traces cfg st₃
        (if g'.cols.isSome && g'.rows.isSome then emitGrid e g' else pure g') fun g'' st' =>
          g''.Defined st' := by
      intro g' hg'
      split
      · exact traces_emitGrid (he.mono hhistory.extends) hg'
      · exact traces_pure hg'
    split
    · exact hwrite _ ⟨fun n hn => by cases hn; exact hdefined, hgrid.rows⟩
    · exact hwrite _ ⟨hgrid.cols, fun n hn => by cases hn; exact hdefined⟩
  · exact traces_throw _

/-! ## Entities -/

lemma traces_createStyle :
    createStyle.Traces cfg st fun e st' => st'.Declares cfg e ∧ IsNumbered e.cname :=
  traces_effect st.withStyle rfl .style
    ⟨.style rfl List.mem_cons_self List.mem_cons_self, _, _, rfl⟩

lemma traces_createWidget {f : Frame} (hparent : st.Declares cfg f.parent) (type : Bytes) :
    (createWidget cfg type f).Traces cfg st fun e st' => st'.Declares cfg e ∧
    IsNumbered e.cname := by
  unfold createWidget
  dsimp only
  split
  · exact traces_throw _
  split
  · exact traces_throw _
  rename_i function hfunction
  have hf := Api.Index.function?_name hfunction
  refine (traces_uncallable? (by rw [hf]; exact hfunction)).bind fun why st₁ h₁ _ => ?_
  split
  · exact traces_throw _
  split
  · exact traces_throw _
  · rename_i hshape
    simp only [Bool.or_eq_true, bne_iff_ne, ne_eq, not_or, not_not] at hshape
    have hcall : st₁.Admits cfg (.call _ [.entity f.parent]) :=
      admits_call ⟨function, hfunction, hshape.1.symm⟩
        (List.forall_mem_singleton.2 (admits_entity (hparent.mono h₁.extends)))
    exact traces_effect (st₁.withWidget (C.identifier type) function.result _ f.parent) rfl
      (.widget _ _ hcall) ⟨.widget rfl List.mem_cons_self, _, _, rfl⟩

lemma traces_register (he : st.Declares cfg e) (hname : IsNumbered e.cname) (key : Bytes) :
    (register key e).Traces cfg st fun _ _ => True :=
  traces_effect _ rfl (.register key he hname _) trivial

/-- Only the path and the scope of a frame change when a node is registered. -/
lemma traces_registerNode (he : st.Declares cfg e) (hname : IsNumbered e.cname) (node : Fields)
    (f : Frame) : (registerNode node e f).Traces cfg st fun inner _ => inner.parent = f.parent := by
  unfold registerNode registerId registerName
  refine Traces.bind (P := fun _ _ => True) ?_ fun _ st₁ h₁ _ =>
    Traces.bind (P := fun _ _ => True) ?_ fun _ _ _ _ =>
      (decided_objectField node _ f.at_).traces.bind fun _ _ _ _ => traces_pure rfl
  · refine (decided_textField node _ f.at_).traces.bind fun id st₂ h₂ _ => ?_
    split
    · exact traces_pure trivial
    · dsimp only
      split
      · exact traces_throw _
      · exact traces_register (he.mono h₂.extends) hname _
  · refine (decided_textField node _ f.at_).traces.bind fun name st₂ h₂ _ => ?_
    split
    · exact traces_pure trivial
    · split
      · exact traces_throw _
      · have hhistory : History cfg st st₂ := h₁.trans h₂
        exact (traces_register (he.mono hhistory.extends) hname _).bind fun _ _ _ _ =>
          traces_pure trivial

lemma traces_localFor {value : Expr} (hvalue : st.Admits cfg value) (result : Bytes) :
    (localFor value result).Traces cfg st fun e st' => st'.Declares cfg e ∧ IsNumbered e.cname :=
  traces_effect (st.withLocal (Bytes.trimHead result "const ") _ value) rfl (.keep _ _ hvalue)
    ⟨.kept rfl List.mem_cons_self List.mem_cons_self, _, _, rfl⟩

lemma traces_blockTarget (hst : st.Sound cfg) (he : st.Declares cfg e) (hname : IsNumbered e.cname)
    (block : Fields) (f : Frame) (at_ : Pointer) :
    (blockTarget cfg e block f at_).Traces cfg st fun target st' =>
      st'.Declares cfg target ∧ IsNumbered target.cname := by
  unfold blockTarget
  split
  · unfold withTarget
    refine (traces_deref _ f.scope _).bind fun ⟨v, scope⟩ st₁ h₁ _ => ?_
    have hst₁ := h₁.sound hst
    dsimp only
    split
    · exact traces_throw _
    · refine traces_get_bind ?_
      split
      · rename_i found hfound
        exact traces_pure (hst₁.of_resolve? hfound)
      · exact traces_throw _
    · refine (traces_formatCall hst₁ ⟨he.mono h₁.extends, .inl rfl⟩ _ _).bind
        fun ⟨call, result⟩ st₂ h₂ hcall => ?_
      dsimp only
      split
      · exact traces_localFor hcall result
      · exact traces_throw _
    · exact traces_throw _
  · exact traces_pure ⟨he, hname⟩

/-! ## Components -/

lemma traces_defineComponent (node : Fields) (at_ : Pointer) :
    (defineComponent node at_).Traces cfg st fun _ _ => True := by
  refine (decided_componentName node _ at_).traces.bind fun name st₁ _ _ =>
    (decided_objectField node _ at_).traces.bind fun root st₂ _ _ => ?_
  split
  · exact traces_throw _
  · have hdefine : ∀ (root : Fields) (st' : State), Run.Traces cfg st'
        (modify fun st => { st with components := (name, root) :: st.components }) fun _ _ =>
          True :=
      fun root st' => (traces_modify (.component name root)).mono fun _ _ _ _ => trivial
    refine traces_get_bind ?_
    split
    · exact (traces_warn _ _).bind fun _ st₃ _ _ => hdefine _ st₃
    · exact hdefine _ st₂

end

/-! ## Nodes -/

/-- The instances that `g` makes are traced, given that their parent is declared. -/
def TracesInstances (cfg : Settings) (g : Fields → Frame → Run Unit) : Prop :=
  ∀ node f st, st.Sound cfg → st.Declares cfg f.parent → (g node f).Traces cfg st fun _ _ => True

section

variable {cfg : Settings} {g : Fields → Frame → Run Unit} {f : Frame} {e : Entity}

lemma traces_useComponent (hg : TracesInstances cfg g) {st : State} (hst : st.Sound cfg)
    (node : Fields)
    (hparent : st.Declares cfg f.parent) :
    (useComponent g node f).Traces cfg st fun _ _ => True := by
  refine (decided_componentName node _ f.at_).traces.bind fun name st₁ h₁ _ =>
    (decided_objectField node _ f.at_).traces.bind fun context st₂ h₂ _ => traces_get_bind ?_
  split
  · exact traces_throw _
  · refine (traces_modify (.remember .nothing _)).bind fun _ st₃ h₃ _ => ?_
    have hhistory : History cfg st st₃ := h₁.trans (h₂.trans h₃)
    exact hg _ _ st₃ (hhistory.sound hst) (hparent.mono hhistory.extends)

/-- Nodes below a size are traced, and so is what is inside them. -/
structure TracesBelow (cfg : Settings) (g : Fields → Frame → Run Unit) (size : Nat) : Prop where
  node {node : Fields} {f : Frame} {st : State} : sizeOf node < size → st.Sound cfg →
    st.Declares cfg f.parent → (processFields cfg g node f).Traces cfg st fun _ _ => True
  inside {node : Fields} {e : Entity} {f : Frame} {st : State} : sizeOf node < size → st.Sound cfg →
    st.Declares cfg e → IsNumbered e.cname → st.Declares cfg f.parent →
      (populate cfg g node e f).Traces cfg st fun _ _ => True

variable {size : Nat} {st : State}

section

variable (hbelow : TracesBelow cfg g size)
include hbelow

lemma traces_processChildren (hst : st.Sound cfg) {children : List Value}
    (hsize : sizeOf children ≤ size) (i : Nat) (hparent : st.Declares cfg f.parent) :
    (processChildren cfg g children i f).Traces cfg st fun _ _ => True := by
  induction children generalizing i st with
  | nil =>
    rw [processChildren]
    exact traces_pure trivial
  | cons child rest ih =>
    rw [List.cons.sizeOf_spec] at hsize
    have hchild : (processNode cfg g child { f with at_ := f.at_.index i }).Traces cfg st fun _ _ =>
        True := by
      unfold processNode
      split
      · rw [Value.obj.sizeOf_spec] at hsize
        exact hbelow.node (by omega) hst hparent
      · exact traces_throw _
    rw [processChildren]
    refine (hchild.recover fun _ _ => trivial).bind fun _ st₁ h₁ _ => ?_
    exact ih (h₁.sound hst) (by omega) (i + 1) (hparent.mono h₁.extends)

lemma traces_withBlock (hst : st.Sound cfg) (he : st.Declares cfg e)
    (hname : IsNumbered e.cname) {block : Fields} (hsize : sizeOf block ≤ size)
    (hparent : st.Declares cfg f.parent) (at_ : Pointer) :
    (withBlock cfg g e block f at_).Traces cfg st fun _ _ => True := by
  unfold withBlock
  refine (traces_blockTarget hst he hname block f at_).bind fun target st₁ h₁ htarget => ?_
  split
  · exact traces_pure trivial
  · rename_i inner hinner
    have hlt := Fields.sizeOf_lt_of_get?_obj hinner
    exact hbelow.inside (by omega) (h₁.sound hst) htarget.1 htarget.2 (hparent.mono h₁.extends)
  · exact traces_throw _

lemma traces_withBlocks (hst : st.Sound cfg) (he : st.Declares cfg e)
    (hname : IsNumbered e.cname) {blocks : List Value} (hsize : sizeOf blocks ≤ size) (i : Nat)
    (hparent : st.Declares cfg f.parent) (at_ : Pointer) :
    (withBlocks cfg g e blocks i f at_).Traces cfg st fun _ _ => True := by
  induction blocks generalizing i st with
  | nil =>
    rw [withBlocks]
    exact traces_pure trivial
  | cons v rest ih =>
    rw [List.cons.sizeOf_spec] at hsize
    cases v with
    | obj block =>
      rw [Value.obj.sizeOf_spec] at hsize
      rw [withBlocks]
      refine ((traces_withBlock hbelow hst he hname (by omega) hparent _).recover fun _ _ =>
        trivial).bind
        fun _ st₁ h₁ _ => ?_
      exact ih (h₁.sound hst) (he.mono h₁.extends) (by omega) (i + 1) (hparent.mono h₁.extends)
    | _ =>
      rw [withBlocks]
      · exact traces_throw _
      · rintro _ ⟨⟩

lemma traces_applyWith (hst : st.Sound cfg) (he : st.Declares cfg e)
    (hname : IsNumbered e.cname) {v : Value} (hsize : sizeOf v ≤ size)
    (hparent : st.Declares cfg f.parent) (at_ : Pointer) :
    (applyWith cfg g e v f at_).Traces cfg st fun _ _ => True := by
  unfold applyWith
  cases v with
  | obj block =>
    rw [Value.obj.sizeOf_spec] at hsize
    exact traces_withBlock hbelow hst he hname (by omega) hparent at_
  | arr blocks =>
    rw [Value.arr.sizeOf_spec] at hsize
    exact traces_withBlocks hbelow hst he hname (by omega) 0 hparent at_
  | _ => exact traces_throw _

lemma traces_applyAttributes (hst : st.Sound cfg)
    (he : st.Declares cfg e) (hname : IsNumbered e.cname) {pairs : List (Bytes × Value)}
    (hsize : sizeOf pairs ≤ size)
    (hparent : st.Declares cfg f.parent) {grid : Grid} (hgrid : grid.Defined st) :
    (applyAttributes cfg g e pairs f grid).Traces cfg st fun grid' st' => grid'.Defined st' := by
  induction pairs generalizing st grid with
  | nil =>
    rw [applyAttributes]
    exact traces_pure hgrid
  | cons pair rest ih =>
    obtain ⟨key, v⟩ := pair
    rw [List.cons.sizeOf_spec, Prod.mk.sizeOf_spec] at hsize
    rw [applyAttributes]
    refine Traces.bind (P := fun grid' st' => grid'.Defined st')
      (Traces.recover ?_ fun _ h => hgrid.history h) fun grid' st₁ h₁ hgrid' => ?_
    · split
      · exact (traces_applyWith hbelow hst he hname (by omega) hparent _).bind fun _ _ h _ =>
          traces_pure (hgrid.history h)
      split
      · exact traces_pure hgrid
      split
      · exact traces_gridTemplate hst he hname hgrid key v f _
      · exact (traces_applySetter hst he hname key v f _).bind fun _ _ h _ => traces_pure
          (hgrid.history h)
    · exact ih (h₁.sound hst) (he.mono h₁.extends) (by omega) (hparent.mono h₁.extends) hgrid'

lemma traces_populate (hst : st.Sound cfg)
    (hsize : sizeOf node ≤ size) (he : st.Declares cfg e) (hname : IsNumbered e.cname)
    (hparent : st.Declares cfg f.parent) :
    (populate cfg g node e f).Traces cfg st fun _ _ => True := by
  unfold populate
  refine (traces_registerNode he hname node f).bind fun inner st₁ h₁ hinner => ?_
  have he₁ := he.mono h₁.extends
  have hparent₁ : st₁.Declares cfg inner.parent := hinner ▸ hparent.mono h₁.extends
  have hgrid : Grid.Defined st₁ {} := ⟨fun _ h => (by cases h), fun _ h => (by cases h)⟩
  refine (traces_applyAttributes hbelow (h₁.sound hst) he₁ hname hsize hparent₁ hgrid).bind
    fun grid st₂ h₂ hgrid₂ => ?_
  have he₂ := he₁.mono h₂.extends
  refine (traces_finishGrid he₂ hgrid₂).bind fun _ st₃ h₃ _ => ?_
  have hhistory : History cfg st st₃ := h₁.trans (h₂.trans h₃)
  split
  · exact traces_pure trivial
  · rename_i children hchildren
    have hlt := Fields.sizeOf_lt_of_get?_arr hchildren
    split
    · exact traces_processChildren hbelow (hhistory.sound hst) (by omega) 0
        (he.mono hhistory.extends)
    · exact traces_warn _ _
  · exact traces_throw _

end

lemma traces_processFields (hg : TracesInstances cfg g) (hbelow : TracesBelow cfg g size)
    (hst : st.Sound cfg) (hsize : sizeOf node ≤ size) (hparent : st.Declares cfg f.parent) :
    (processFields cfg g node f).Traces cfg st fun _ _ => True := by
  unfold processFields
  refine (decided_textField node _ f.at_).traces.bind fun type st₁ h₁ _ => ?_
  have hst₁ := h₁.sound hst
  have hparent₁ := hparent.mono h₁.extends
  cases NodeKind.ofType type with
  | component => exact traces_defineComponent node f.at_
  | use => exact traces_useComponent hg hst₁ node hparent₁
  | context =>
    refine (decided_objectField node _ f.at_).traces.bind fun values st₂ h₂ _ => ?_
    cases values with
    | none => exact traces_throw _
    | some values =>
      dsimp only
      split
      · exact traces_throw _
      · rename_i body hbody
        have hlt := Fields.sizeOf_lt_of_get?_obj hbody
        exact hbelow.node (by omega) (h₂.sound hst₁) (hparent₁.mono h₂.extends)
      · exact traces_throw _
  | style =>
    refine traces_createStyle.bind fun e st₂ h₂ he => ?_
    exact traces_populate hbelow (h₂.sound hst₁) hsize he.1 he.2 (hparent₁.mono h₂.extends)
  | widget type =>
    refine (traces_createWidget hparent₁ type).bind fun e st₂ h₂ he => ?_
    exact traces_populate hbelow (h₂.sound hst₁) hsize he.1 he.2 (hparent₁.mono h₂.extends)

/-- Nodes of all sizes are traced: those of one size by the smaller ones inside them. -/
lemma TracesInstances.below (hg : TracesInstances cfg g) (size : Nat) : TracesBelow cfg g size := by
  induction size with
  | zero =>
      exact ⟨fun hsize => absurd hsize (Nat.not_lt_zero _), fun hsize => absurd hsize
        (Nat.not_lt_zero _)⟩
  | succ size ih =>
    exact ⟨fun hsize hst hparent => traces_processFields hg ih hst
      (Nat.le_of_lt_succ hsize) hparent,
      fun hsize hst he hname hparent => traces_populate ih hst (Nat.le_of_lt_succ hsize) he
        hname hparent⟩

end

/-! ## Runs -/

lemma traces_instantiate (cfg : Settings) : TracesInstances cfg (instantiate cfg) := by
  intro node f st hst hparent r st' hr
  refine ⟨?_, fun _ _ => trivial⟩
  refine instantiate_induction cfg
    (motive := fun _ f st r => st.Sound cfg → st.Declares cfg f.parent → History cfg st r.2) ?_
      hr hst hparent
  intro g ih node f st r hr hst hparent
  have hg : TracesInstances cfg g := fun node f st hst hparent r st' hr =>
    ⟨ih node f st (r, st') hr hst hparent, fun _ _ => trivial⟩
  exact (traces_processFields hg (hg.below _) hst le_rfl hparent r.1 r.2 hr).1

lemma traces_run {cfg : Settings} {st : State} (hst : st.Sound cfg) (doc : Value) :
    (run cfg doc).Traces cfg st fun _ _ => True := by
  unfold run runWith
  dsimp only
  split
  · have hg := traces_instantiate cfg
    exact (traces_processFields hg (hg.below _) hst le_rfl .parent).recover fun _ _ => trivial
  · exact traces_processChildren ((traces_instantiate cfg).below _) hst le_rfl 0 .parent
  · exact traces_throw _

/-- The states that a generator goes through: it begins with nothing but the sizes of types that are
already known, and processes documents on top of what it holds, whether or not a run fails. -/
inductive Session (cfg : Settings) : State → Prop
  | start (sizes : Api.Sizes) : Session cfg { sizes }
  | run {st : State} (hst : Session cfg st) (doc : Value) {r : Except Fault Unit} {st' : State}
      (hrun : (run cfg doc).outcome st = some (r, st')) : Session cfg st'

lemma sound_start (cfg : Settings) (sizes : Api.Sizes) : State.Sound cfg { sizes } :=
  ⟨fun _ h => (by cases h), fun _ h => (by cases h), fun h => (by cases h)⟩

lemma Session.history {cfg : Settings} {st : State} (h : Session cfg st) :
    ∃ sizes, History cfg { sizes } st := by
  induction h with
  | start sizes => exact ⟨sizes, .refl⟩
  | run hst doc hrun ih =>
    obtain ⟨sizes, hhistory⟩ := ih
    have hsound := hhistory.sound (sound_start cfg sizes)
    exact ⟨sizes, hhistory.trans (traces_run hsound doc _ _ hrun).1⟩

/-- What holds in the beginning and is kept by every effect holds throughout a session. -/
lemma Session.invariant {cfg : Settings} {st : State} (h : Session cfg st) {P : State → Prop}
    (hstart : ∀ sizes, P { sizes }) (hstep : ∀ st st', Effect cfg st st' → P st → P st') :
    P st := by
  obtain ⟨sizes, hhistory⟩ := h.history
  clear h
  induction hhistory with
  | refl => exact hstart sizes
  | tail _ heffect ih => exact hstep _ _ heffect ih

end UiCodegen.Transpile
