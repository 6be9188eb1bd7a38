import UiCodegen.Proofs.AttributeOrder
import UiCodegen.Proofs.Traces

/-!
# The templates of a grid

The columns and the rows of a grid are two attributes that one call sets.  Whenever one of them is
given, an array is made of its value, which may fail.  The call is written as soon as there are
arrays for both, again for every array that is made later, and behind all attributes if there is an
array for one of them only.

`GridMove` says what one of the two attributes does to what is known of a grid, and `Reflects` what
is known after any number of pairs.  So the last call passes the arrays that were made last
(`grid_takes_last_templates`), unless a `with` block stops the run.  A `with` block may also set the
templates of the same grid once more; it knows nothing of the arrays outside, and its calls are not
counted here (`with_block_loses_templates`).
-/

namespace UiCodegen.Transpile

open Run State

variable {pairs : Fields} {pair : Bytes × Value} {key name : Bytes} {fault : Fault} {st st' : State}

/-! ## Steps that stop nothing -/

/-- The steps violate nothing: whatever fails in them is reported, and the run goes on. -/
def Run.Mild {α : Type} (x : Run α) :
    Prop := x.Ensures fun _ r _ => ∀ v at_, r ≠ .error (.violation v at_)

lemma mild_modify (f : State → State) : (modify f : Run Unit).Mild := by
  rintro st r st' ⟨⟩ v at_ ⟨⟩

lemma Run.Mild.bind {α β : Type} {x : Run α} {k : α → Run β} (hx : x.Mild) (hk : ∀ a, (k a).Mild) :
    (x >>= k).Mild :=
  Ensures.bind hx (fun _ _ _ h v at_ => by simpa using h v at_) fun _ a _ _ _ _ hr => hk a _ _ _ hr

lemma setterRules_mild : SetterRules fun _ x => x.Mild where
  pure a := by rintro st r st' ⟨⟩ v at_ ⟨⟩
  fail p at_ := by rintro st r st' ⟨⟩ v at_ ⟨⟩
  bind hx hk := hx.bind hk
  look _ hk := fun st r st' hr => hk st st r st' hr
  note _ := mild_modify _
  warn p at_ := by rintro st r st' ⟨⟩ v at_ ⟨⟩
  emit _ := mild_modify _

/-- Steps that end and violate nothing come to something once their problems are reported. -/
lemma Run.Mild.exists_recover {α : Type} {x : Run α} (hx : x.Mild) (hends : x.Keeps) (otherwise : α)
    (st : State) : ∃ a st', (recover otherwise x).outcome st = some (.ok a, st') := by
  obtain ⟨r, st₁, hr, -⟩ := hends st
  rw [outcome_recover, hr]
  match r with
  | .ok a => exact ⟨a, st₁, rfl⟩
  | .error (.problem p at_) => exact ⟨otherwise, _, rfl⟩
  | .error (.violation v at_) => exact absurd rfl (hx _ _ _ hr v at_)

/-! ## Arrays -/

def templateArray (cfg : Settings) (e : Entity) (key : Bytes) (raw : Value) (f : Frame)
    (at_ : Pointer) : Run Bytes := do
  let (v, scope) ← deref raw f.scope at_
  match v with
  | .arr items =>
    let entries ← formatItems cfg { scope, path := f.path, entity := e, at_ } 0 items
      (fun _ => templateType)
    staticArray (e.cname ++ "_" ++ key) templateType (closeTemplate entries)
  | v => fail (.gridNotArray key v.typeName) at_

def ClosedArray (name : Bytes) (st : State) : Prop :=
  ∃ items, .array name templateType items ∈ st.definitions ∧ items.getLast?.map Expr.render =
    some gridTemplateLast

lemma ClosedArray.mono (h : ClosedArray name st)
    (hgrows : st.definitions <:+ st'.definitions) : ClosedArray name st' := by
  obtain ⟨items, hitems, hlast⟩ := h
  exact ⟨items, hgrows.subset hitems, hlast⟩

lemma getLast?_closeTemplate (items : List Expr) :
    (closeTemplate items).getLast?.map Expr.render = some gridTemplateLast := by
  unfold closeTemplate
  split
  · rename_i hlast
    exact beq_iff_eq.1 hlast
  · rw [List.getLast?_concat]
    rfl

section

variable (cfg : Settings) (e : Entity) (key : Bytes) (raw : Value) (f : Frame) (at_ : Pointer)

lemma FormatRules.templateArray {P : (α : Type) → Run α → Prop} (h : FormatRules P) :
    P Bytes (Transpile.templateArray cfg e key raw f at_) := by
  unfold Transpile.templateArray
  refine h.bind (h.followVariables at_ _ raw f.scope) fun ⟨v, scope⟩ => ?_
  dsimp only
  split
  · exact h.bind (h.formatItems cfg _ 0 _ _) fun entries => h.staticArray _ _ _
  · exact h.fail _ _

variable {cfg e key raw f at_} in
lemma closedArray_of_templateArray
    (h : (templateArray cfg e key raw f at_).outcome st = some (.ok name, st')) :
    ClosedArray name st' := by
  unfold templateArray at h
  obtain ⟨⟨v, scope⟩, st₁, -, h⟩ | ⟨fault, -, hfault⟩ := outcome_bind_eq_some.1 h
  · dsimp only at h
    split at h
    · obtain ⟨entries, st₂, -, h⟩ | ⟨fault, -, hfault⟩ := outcome_bind_eq_some.1 h
      · rw [outcome_staticArray] at h
        cases h
        exact ⟨closeTemplate entries, List.mem_cons_self, getLast?_closeTemplate entries⟩
      · cases hfault
    · cases h
  · cases hfault

end

/-! ## One attribute of a grid -/

def IsTemplate (key : Bytes) : Prop := key = "cols" ∨ key = "rows"

def Grid.place (grid : Grid) (key name : Bytes) : Grid :=
  if key == "cols" then { grid with cols := some name } else { grid with rows := some name }

lemma Grid.emitted_place (grid : Grid) (key name : Bytes) :
    (grid.place key name).emitted = grid.emitted := by
  unfold Grid.place
  split <;> rfl

lemma Grid.isSome_place (grid : Grid) (key name : Bytes) :
      (grid.cols.isSome → (grid.place key name).cols.isSome) ∧
      (grid.rows.isSome → (grid.place key name).rows.isSome) := by
  unfold Grid.place
  split <;> simp

lemma gridTemplate_eq (cfg : Settings) (e : Entity) (grid : Grid) (key : Bytes)
    (raw : Value) (f : Frame) (at_ : Pointer) : gridTemplate cfg e grid key raw f at_ = (do
      let name ← templateArray cfg e key raw f at_
      let grid := grid.place key name
      if grid.cols.isSome && grid.rows.isSome then emitGrid e grid else pure grid) := by
  unfold gridTemplate templateArray
  rw [bind_assoc]
  refine bind_congr fun ⟨v, scope⟩ => ?_
  cases v with
  | arr items => exact (bind_assoc _ _ _).symm
  | _ => rfl

/-- An array in a call, or nothing. -/
def templateArg : Option Bytes → Expr
  | some name => .static name
  | none => .text "NULL"

def templateCall (e : Entity) (cols rows : Option Bytes) : Statement :=
  .call "lv_obj_set_grid_dsc_array" [.entity e, templateArg cols, templateArg rows]

lemma gridCall_eq (e : Entity) (grid : Grid) :
    gridCall e grid = templateCall e grid.cols grid.rows := by
  obtain ⟨cols, rows, emitted⟩ := grid
  cases cols <;> cases rows <;> rfl

/-- What columns or rows do to what is known of a grid: the array that is made of them, the call
that is written and what is known then. -/
inductive GridMove (e : Entity) (key : Bytes) (grid : Grid) :
    Option Bytes → List Statement → Grid → Prop
  | failed : GridMove e key grid none [] grid
  | waiting {name : Bytes}
      (hpart : ((grid.place key name).cols.isSome && (grid.place key name).rows.isSome) = false) :
      GridMove e key grid (some name) [] (grid.place key name)
  | called {name : Bytes}
      (hboth : ((grid.place key name).cols.isSome && (grid.place key name).rows.isSome) = true) :
      GridMove e key grid (some name) [gridCall e (grid.place key name)]
        { grid.place key name with emitted := true }

lemma GridMove.calls {e : Entity} {key : Bytes} {grid grid' : Grid} {array : Option Bytes}
    {calls : List Statement}
    (h : GridMove e key grid array calls grid') :
    ∀ call ∈ calls, ∃ cols rows, call = templateCall e cols rows := by
  intro call hcall
  cases h with
  | failed => cases hcall
  | waiting _ => cases hcall
  | called _ => exact ⟨_, _, (List.mem_singleton.1 hcall).trans (gridCall_eq e _)⟩

section

variable {cfg : Settings} {e : Entity} {key : Bytes} {v : Value} {f : Frame} {at_ : Pointer}
  {grid grid' : Grid} {st st' : State}

/-- The outcome of columns or rows, by the outcome of their array. -/
lemma gridMove_of_recover
    (h : (recover grid (gridTemplate cfg e grid key v f at_)).outcome st = some (.ok grid', st')) :
    ∃ made st₁, ∃ (warnings : List Diagnostic) (calls : List Statement),
      (templateArray cfg e key v f at_).outcome st = some (made, st₁) ∧
      st'.definitions = st₁.definitions ∧
      st'.body = (warnings.map Diagnostic.comment ++ calls).reverse ++ st.body ∧
      GridMove e key grid made.toOption calls grid' := by
  obtain ⟨made, st₁, hmade, hformatted⟩ := formatRules_formats.templateArray cfg e key v f at_ st
  obtain ⟨ds, -, hbody⟩ := hformatted.warnings
  rw [gridTemplate_eq, outcome_recover, outcome_bind, hmade] at h
  refine ⟨made, st₁, ?_⟩
  match made with
  | .error (.problem p q) =>
    cases h
    refine ⟨ds.reverse ++ [⟨q.display, p.message⟩], [], hmade, rfl, ?_, .failed⟩
    simp [State.reported, hbody, Diagnostic.comment]
  | .ok name =>
    dsimp only at h
    by_cases hboth : ((grid.place key name).cols.isSome && (grid.place key name).rows.isSome) = true
    · rw [if_pos hboth] at h
      cases h
      refine ⟨ds.reverse, [gridCall e (grid.place key name)], hmade, rfl, ?_, .called hboth⟩
      simp [hbody]
    · rw [if_neg hboth] at h
      cases h
      refine ⟨ds.reverse, [], hmade, rfl, ?_, .waiting (Bool.eq_false_iff.2 hboth)⟩
      simp [hbody]

end

/-! ## The pairs of a grid -/

/-- What setting a pair of a grid comes to. -/
structure GridStep where
  key : Bytes
  /-- What is written, the first line first. -/
  lines : List Statement
  array : Option Bytes
  calls : List Statement

namespace GridStep

def latest (key : Bytes) (steps : List GridStep) : Option Bytes :=
  (steps.filterMap fun s => if s.key = key then s.array else none).getLast?

/-- The calls that set the templates, in the order of the pairs. -/
def allCalls (steps : List GridStep) : List Statement := steps.flatMap GridStep.calls

lemma latest_concat (key : Bytes) (steps : List GridStep) (s : GridStep) :
    latest key (steps ++ [s]) = (if s.key = key then s.array else none).or (latest key steps) := by
  have hsingle : ∀ array : Option Bytes, (List.filterMap (fun _ : GridStep => array) [s]).getLast? =
      array := by
    intro array
    cases array <;> rfl
  rw [latest, latest, List.filterMap_append, List.getLast?_append]
  exact congrArg (Option.or · _) (hsingle _)

lemma getLast?_allCalls_concat (steps : List GridStep) (s : GridStep) :
    (allCalls (steps ++ [s])).getLast? = s.calls.getLast?.or (allCalls steps).getLast? := by
  rw [allCalls, allCalls, List.flatMap_append, List.flatMap_singleton, List.getLast?_append]

lemma isSome_latest_iff {steps : List GridStep} :
    (latest key steps).isSome = true ↔ ∃ s ∈ steps, s.key = key ∧ ∃ name, s.array = some name := by
  rw [latest, List.getLast?_isSome, List.ne_nil_iff_exists_cons]
  constructor
  · rintro ⟨name, names, hnames⟩
    obtain ⟨s, hs, hname⟩ := List.mem_filterMap.1 (hnames ▸ List.mem_cons_self : name ∈ _)
    by_cases hkey : s.key = key
    · rw [if_pos hkey] at hname
      exact ⟨s, hs, hkey, name, hname⟩
    · rw [if_neg hkey] at hname
      cases hname
  · rintro ⟨s, hs, hkey, name, hname⟩
    refine List.ne_nil_iff_exists_cons.1
      (List.ne_nil_of_mem (a := name) (List.mem_filterMap.2 ⟨s, hs, ?_⟩))
    rw [if_pos hkey, hname]

/-- What is known of a grid is what the pairs in front have come to. -/
structure Reflects (e : Entity) (steps : List GridStep) (grid : Grid) : Prop where
  cols : grid.cols = latest "cols" steps
  rows : grid.rows = latest "rows" steps
  emitted : grid.emitted = (grid.cols.isSome && grid.rows.isSome)
  last : (allCalls steps).getLast? = if grid.emitted then some (gridCall e grid) else none

lemma reflects_nil (e : Entity) : Reflects e [] {} := ⟨rfl, rfl, rfl, rfl⟩

section

variable {e : Entity} {steps : List GridStep} {grid grid' : Grid} {s : GridStep}

/-- A pair of which no array is made changes nothing. -/
lemma Reflects.skip (h : Reflects e steps grid) (harray : s.array = none) (hcalls : s.calls = []) :
    Reflects e (steps ++ [s]) grid where
  cols := by simp [latest_concat, harray, h.cols]
  rows := by simp [latest_concat, harray, h.rows]
  emitted := h.emitted
  last := by rw [getLast?_allCalls_concat, hcalls, List.getLast?_nil, Option.none_or, h.last]

/-- The array takes its place, whichever of the two it is. -/
lemma Reflects.place (h : Reflects e steps grid) (hkey : IsTemplate s.key) {name : Bytes}
    (harray : s.array = some name) :
    (grid.place s.key name).cols = latest "cols" (steps ++ [s]) ∧
      (grid.place s.key name).rows = latest "rows" (steps ++ [s]) := by
  have hne : (Bytes.ofString "rows" == Bytes.ofString "cols") = false := by decide
  have hne' : Bytes.ofString "cols" ≠ Bytes.ofString "rows" := by decide
  rw [latest_concat, latest_concat, harray, ← h.cols, ← h.rows]
  obtain hkey | hkey := hkey
  · simp [Grid.place, hkey, hne']
  · simp [Grid.place, hkey, hne, hne'.symm]

lemma Reflects.move (h : Reflects e steps grid) (hkey : IsTemplate s.key)
    (hmove : GridMove e s.key grid s.array s.calls grid') : Reflects e (steps ++ [s]) grid' := by
  generalize harray : s.array = array at hmove
  generalize hcalls : s.calls = calls at hmove
  cases hmove with
  | failed => exact h.skip harray hcalls
  | @waiting name hpart =>
    obtain ⟨hcols, hrows⟩ := h.place hkey harray
    -- Before this array there was none for one of the two, as there is none now.
    have hemitted : grid.emitted = false := by
      obtain ⟨hcols', hrows'⟩ := grid.isSome_place s.key name
      rw [h.emitted, Bool.eq_false_iff]
      intro hboth
      rw [Bool.and_eq_true] at hboth
      rw [hcols' hboth.1, hrows' hboth.2] at hpart
      cases hpart
    have hemitted' := (grid.emitted_place s.key name).trans hemitted
    refine ⟨hcols, hrows, hemitted'.trans hpart.symm, ?_⟩
    rw [getLast?_allCalls_concat, hcalls, List.getLast?_nil, Option.none_or, h.last,
      hemitted, hemitted']
    rfl
  | called hboth =>
    obtain ⟨hcols, hrows⟩ := h.place hkey harray
    refine ⟨hcols, hrows, hboth.symm, ?_⟩
    rw [getLast?_allCalls_concat, hcalls]
    rfl

end

/-- Setting a pair of a grid between two states comes to a step. -/
structure Of (cfg : Settings) (e : Entity) (f : Frame) (pair : Bytes × Value) (st : State)
    (s : GridStep) (st' : State) : Prop where
  key : s.key = pair.1
  writes : Writes cfg e f pair st s.lines st'
  definitions : st.definitions <:+ st'.definitions
  /-- Columns and rows are made into an array.  Behind comments on what was reported there are only
  their calls. -/
  template : IsTemplate pair.1 → ∃ made st₁, ∃ warnings : List Diagnostic,
    (templateArray cfg e pair.1 pair.2 f (f.at_.key pair.1)).outcome st = some (made, st₁) ∧
      s.array = made.toOption ∧
    s.lines = warnings.map Diagnostic.comment ++ s.calls
  other : ¬IsTemplate pair.1 → s.array = none ∧ s.calls = []
  closed : ∀ name, s.array = some name → ClosedArray name st'
  calls : ∀ call ∈ s.calls, ∃ cols rows, call = templateCall e cols rows

/-- The pairs of a grid come to steps one after the other, each in the state that those in front of
it have left. -/
inductive InOrder (cfg : Settings) (e : Entity) (f : Frame) :
    Fields → State → List GridStep → State → Prop
  | nil {st : State} : InOrder cfg e f [] st [] st
  | cons {pair : Bytes × Value} {rest : Fields} {st st₁ st₂ : State} {s : GridStep}
      {steps : List GridStep}
      (hpair : s.Of cfg e f pair st st₁) (hrest : InOrder cfg e f rest st₁ steps st₂) :
      InOrder cfg e f (pair :: rest) st (s :: steps) st₂

section

variable {cfg : Settings} {g : Fields → Frame → Run Unit} {e : Entity} {f : Frame} {st st' : State}
  {grid grid' : Grid} {steps : List GridStep}

lemma grid_of_recover {x : Run Unit}
    (h : (recover grid (do x; pure grid)).outcome st = some (.ok grid', st')) : grid' = grid := by
  rw [outcome_recover, outcome_bind] at h
  match hx : x.outcome st, h with
  | some (.ok (), _), h =>
    cases h
    rfl
  | some (.error (.problem _ _), _), h =>
    cases h
    rfl

lemma grid_of_applyAttributes {v : Value} (hkey : ¬IsTemplate key)
    (h : (applyAttributes cfg g e [(key, v)] f grid).outcome st = some (.ok grid', st')) :
    grid' = grid := by
  have hother : (e.nodeType == "grid" && (key == "cols" || key == "rows")) = false := by
    simpa using fun _ => not_or.1 hkey
  rw [applyAttributes_single, hother] at h
  split at h
  · exact grid_of_recover h
  · split at h
    · cases h
      rfl
    · exact grid_of_recover h

lemma exists_outcome_of_ne_with (cfg : Settings) (g : Fields → Frame → Run Unit) (e : Entity)
    (f : Frame) (grid : Grid) (st : State) (hwith : pair.1 ≠ "with") :
    ∃ grid' st', (applyAttributes cfg g e [pair] f grid).outcome st = some (.ok grid', st') := by
  obtain ⟨key, v⟩ := pair
  have hrules : ∀ {P : (α : Type) → Run α → Prop}, SetterRules P → P Grid (
      if metaKeys.contains key then pure grid
      else if e.nodeType == "grid" && (key == "cols" || key == "rows") then
        gridTemplate cfg e grid key v f (f.at_.key key)
      else do
        applySetter cfg e key v f (f.at_.key key)
        pure grid) := by
    intro P h
    split
    · exact h.pure _
    split
    · exact h.gridTemplate cfg e f _ grid key v
    · exact h.bind (h.applySetter cfg e f _ key v) fun _ => h.pure _
  rw [applyAttributes_single, beq_eq_false_iff_ne.2 hwith]
  exact (hrules setterRules_mild).exists_recover (hrules setterRules_keeps) grid st

/-- Only a `with` block stops the pairs. -/
lemma with_of_error
    (h : (applyAttributes cfg g e [pair] f grid).outcome st = some (.error fault, st')) :
    pair.1 = "with" ∧ (applyWith cfg g e pair.2 f (f.at_.key "with")).outcome st = some
    (.error fault, st') := by
  have hwith : pair.1 = "with" := by
    by_contra hwith
    obtain ⟨grid', st₁, hok⟩ := exists_outcome_of_ne_with cfg g e f grid st hwith
    rw [h] at hok
    cases hok
  obtain ⟨key, v⟩ := pair
  obtain rfl : key = "with" := hwith
  rw [applyAttributes_single, beq_self_eq_true, if_pos rfl, outcome_recover, outcome_bind] at h
  refine ⟨rfl, ?_⟩
  match hx : (applyWith cfg g e v f (f.at_.key "with")).outcome st, h with
  | some (.error (.violation _ _), _), h =>
    cases h
    rfl

/-- What is known of the grid goes on with each pair. -/
lemma exists_of_applyAttributes (hg : ∀ node f, (g node f).Grows) (hgrid : e.nodeType = "grid")
    (hreflects : Reflects e steps grid)
    (h : (applyAttributes cfg g e [pair] f grid).outcome st = some (.ok grid', st')) :
    ∃ s : GridStep, s.Of cfg e f pair st st' ∧ Reflects e (steps ++ [s]) grid' := by
  obtain ⟨lines, hlines⟩ := writes_applyAttributes hg h
  have hgrows := grows_applyAttributes hg cfg e [pair] f grid _ _ _ h
  obtain ⟨key, v⟩ := pair
  by_cases hkey : IsTemplate key
  · have htemplate : (key == "with") = false ∧ metaKeys.contains key = false ∧
        (e.nodeType == "grid" && (key == "cols" || key == "rows")) = true := by
      rw [hgrid]
      obtain rfl | rfl := hkey <;> decide
    obtain ⟨hwith, hmeta, htemplate⟩ := htemplate
    rw [applyAttributes_single, hwith, hmeta, htemplate] at h
    obtain ⟨made, st₁, warnings, calls, hmade, hdefinitions, hbody, hmove⟩ := gridMove_of_recover h
    have hlines' : lines = warnings.map Diagnostic.comment ++ calls :=
      List.reverse_injective (List.append_cancel_right (hlines.body.symm.trans hbody))
    have hclosed : ∀ name, made.toOption = some name → ClosedArray name st' := by
      intro name hname
      match made, hname with
      | .ok _, rfl =>
          exact (closedArray_of_templateArray hmade).mono (hdefinitions ▸ List.suffix_refl _)
    exact ⟨⟨key, lines, made.toOption, calls⟩,
      { key := rfl
        writes := hlines
        definitions := hgrows.definitions
        template := fun _ => ⟨made, st₁, warnings, hmade, rfl, hlines'⟩
        other := fun hother => absurd hkey hother
        closed := hclosed
        calls := hmove.calls }, hreflects.move hkey hmove⟩
  · obtain rfl := grid_of_applyAttributes hkey h
    exact ⟨⟨key, lines, none, []⟩,
      { key := rfl
        writes := hlines
        definitions := hgrows.definitions
        template := fun htemplate => absurd htemplate hkey
        other := fun _ => ⟨rfl, rfl⟩
        closed := fun _ hname => nomatch hname
        calls := fun _ hcall => nomatch hcall }, hreflects.skip rfl rfl⟩

/-- The induction is over the pairs, and what is known of the grid carries it. -/
lemma inOrder_applyAttributes (hg : ∀ node f, (g node f).Grows) (hgrid : e.nodeType = "grid")
    {r : Except Fault Grid} (hreflects : Reflects e steps grid)
    (h : (applyAttributes cfg g e pairs f grid).outcome st = some (r, st')) :
    ∃ front rest later st₁ grid', pairs = front ++ rest ∧ InOrder cfg e f front st later st₁ ∧
      Reflects e (steps ++ later) grid' ∧ ((rest = [] ∧ st' = st₁ ∧ r = .ok grid') ∨
        ∃ v tail fault, rest = (Bytes.ofString "with", v) :: tail ∧ r = .error fault ∧
          (applyWith cfg g e v f (f.at_.key "with")).outcome st₁ = some (.error fault, st')) := by
  induction pairs generalizing st grid steps with
  | nil =>
    rw [applyAttributes] at h
    cases h
    exact ⟨[], [], [], _, grid, rfl, .nil, by rwa [List.append_nil], .inl ⟨rfl, rfl, rfl⟩⟩
  | cons pair rest ih =>
    rw [applyAttributes_cons] at h
    obtain ⟨grid₁, st₁, hpair, h⟩ | ⟨fault, hpair, rfl⟩ := outcome_bind_eq_some.1 h
    · obtain ⟨s, hs, hreflects₁⟩ := exists_of_applyAttributes hg hgrid hreflects hpair
      obtain ⟨front, back, later, st₂, grid₂, rfl, hfront, hreflects₂, hend⟩ := ih hreflects₁ h
      rw [List.append_assoc] at hreflects₂
      exact ⟨pair :: front, back, s :: later, st₂, grid₂, rfl, .cons hs hfront, hreflects₂, hend⟩
    · obtain ⟨hwith, hstop⟩ := with_of_error hpair
      exact ⟨[], pair :: rest, [], st, grid, rfl, .nil, by rwa [List.append_nil],
        .inr ⟨pair.2, rest, fault, by rw [← hwith], rfl, hstop⟩⟩

/-- Pairs without `with` blocks are all set. -/
lemma exists_outcome_applyAttributes (cfg : Settings) (g : Fields → Frame → Run Unit)
    (e : Entity) (f : Frame) (grid : Grid) (st : State) (hpairs : ∀ pair ∈ pairs, pair.1 ≠ "with") :
    ∃ grid' st', (applyAttributes cfg g e pairs f grid).outcome st = some (.ok grid', st') := by
  induction pairs generalizing st grid with
  | nil =>
    rw [applyAttributes]
    exact ⟨grid, st, rfl⟩
  | cons pair rest ih =>
    obtain ⟨grid₁, st₁, hpair⟩ :=
      exists_outcome_of_ne_with cfg g e f grid st (hpairs pair List.mem_cons_self)
    obtain ⟨grid₂, st₂, hrest⟩ :=
      ih grid₁ st₁ fun later hmem => hpairs later (List.mem_cons_of_mem _ hmem)
    exact ⟨grid₂, st₂, by rw [applyAttributes_cons, outcome_bind, hpair]; exact hrest⟩

/-! ### What the steps amount to -/

lemma InOrder.definitions {pairs : Fields} (h : InOrder cfg e f pairs st steps st') :
    st.definitions <:+ st'.definitions := by
  induction h with
  | nil => exact List.suffix_refl _
  | cons hpair _ ih => exact hpair.definitions.trans ih

lemma InOrder.closed {pairs : Fields} (h : InOrder cfg e f pairs st steps st') :
    ∀ s ∈ steps, ∀ name, s.array = some name → ClosedArray name st' := by
  induction h with
  | nil => exact fun s hs => nomatch hs
  | cons hpair hrest ih =>
    intro s hs name hname
    obtain rfl | hs := List.mem_cons.1 hs
    · exact (hpair.closed name hname).mono hrest.definitions
    · exact ih s hs name hname

lemma InOrder.isTemplate (h : InOrder cfg e f pairs st steps st') :
    ∀ s ∈ steps, ∀ name, s.array = some name → IsTemplate s.key := by
  induction h with
  | nil => exact fun s hs => nomatch hs
  | cons hpair _ ih =>
    intro s hs name hname
    obtain rfl | hs := List.mem_cons.1 hs
    · by_contra hother
      rw [(hpair.other (hpair.key ▸ hother)).1] at hname
      cases hname
    · exact ih s hs name hname

end

def isTemplateCall : Statement → Bool
  | .call function _ => function == "lv_obj_set_grid_dsc_array"
  | _ => false

/-- A key of neither a `with` block nor an attribute that the function itself may set. -/
def IsPlain (e : Entity) (key : Bytes) : Prop :=
  key ≠ "with" ∧ Bytes.ofString "lv_obj_set_grid_dsc_array" ∉ setterNames e key

section

variable {cfg : Settings} {e : Entity} {f : Frame} {st st' : State} {steps : List GridStep}

lemma filter_comments (warnings : List Diagnostic) :
    (warnings.map Diagnostic.comment).filter isTemplateCall = [] := by
  simp [List.filter_map, Diagnostic.comment, isTemplateCall]

/-- Of a plain pair, the calls that set templates are the calls of that function. -/
lemma Of.filter_lines {s : GridStep} (h : s.Of cfg e f pair st st')
    (hplain : IsPlain e pair.1) : s.lines.filter isTemplateCall = s.calls := by
  by_cases hkey : IsTemplate pair.1
  · obtain ⟨-, -, warnings, -, -, hlines⟩ := h.template hkey
    have hcalls : s.calls.filter isTemplateCall = s.calls := by
      refine List.filter_eq_self.2 fun call hcall => ?_
      obtain ⟨cols, rows, rfl⟩ := h.calls call hcall
      rfl
    rw [hlines, List.filter_append, filter_comments, hcalls, List.nil_append]
  rw [(h.other hkey).2]
  by_cases hmeta : pair.1 ∈ metaKeys
  · have hbody := h.writes.body
    rw [h.writes.silent hmeta hplain.1, List.self_eq_append_left, List.reverse_eq_nil_iff] at hbody
    rw [hbody, List.filter_nil]
  · obtain ⟨-, warnings, calls, hlines, hcalls⟩ :=
      h.writes.setter ⟨hmeta, fun hgrid => hkey hgrid.2⟩
    rw [hlines, List.filter_append, filter_comments, List.nil_append]
    obtain rfl | ⟨setter, hsetter, args, rfl⟩ := hcalls
    · rfl
    · have hne : (setter == Bytes.ofString "lv_obj_set_grid_dsc_array") = false :=
        beq_eq_false_iff_ne.2 fun heq => hplain.2 (heq ▸ hsetter)
      simp [isTemplateCall, hne]

lemma InOrder.filter_lines {pairs : Fields} (h : InOrder cfg e f pairs st steps st')
    (hplain : ∀ pair ∈ pairs, IsPlain e pair.1) :
    (steps.flatMap GridStep.lines).filter isTemplateCall = allCalls steps := by
  induction h with
  | nil => rfl
  | cons hpair _ ih =>
    rw [List.flatMap_cons, List.filter_append, hpair.filter_lines (hplain _ List.mem_cons_self),
      ih fun pair hmem => hplain pair (List.mem_cons_of_mem _ hmem)]
    rfl

lemma InOrder.body {pairs : Fields} (h : InOrder cfg e f pairs st steps st') :
    st'.body = (steps.flatMap GridStep.lines).reverse ++ st.body := by
  induction h with
  | nil => rfl
  | cons hpair _ ih => simp [ih, hpair.writes.body]

/-- The call behind the attributes, if there is one. -/
lemma Reflects.finish {grid : Grid} (h : Reflects e steps grid) (st : State) :
      ∃ closing : Option Statement,
      (finishGrid e grid).outcome st = some
      (.ok (), { st with body := closing.toList ++ st.body }) ∧
      closing.toList.filter isTemplateCall = closing.toList ∧
      (allCalls steps ++ closing.toList).getLast? =
        if grid.cols.isSome || grid.rows.isSome then some (templateCall e grid.cols grid.rows)
          else none := by
  rw [← gridCall_eq]
  by_cases hemitted : grid.emitted = true
  · have hcols : grid.cols.isSome = true := (Bool.and_eq_true _ _ ▸ h.emitted ▸ hemitted).1
    refine ⟨none, by simp [finishGrid, hemitted], rfl, ?_⟩
    rw [Option.toList_none, List.append_nil, h.last, if_pos hemitted, hcols]
    rfl
  · by_cases hany : (grid.cols.isSome || grid.rows.isSome) = true
    · refine ⟨some (gridCall e grid), by simp [finishGrid, hemitted, hany]; rfl, rfl, ?_⟩
      rw [if_pos hany, Option.toList_some, List.getLast?_concat]
    · refine ⟨none, by simp [finishGrid, hemitted, hany], rfl, ?_⟩
      rw [Option.toList_none, List.append_nil, h.last, if_neg hemitted, if_neg hany]

end

end GridStep

/-! ## The main statement -/

open GridStep

/-- Calls that set the templates of a grid, for the arrays that were made of its columns and rows.
There are calls if there is an array, and the last passes the last arrays. -/
structure FinalCalls (e : Entity) (steps : List GridStep) (calls : List Statement) : Prop where
  called_iff : calls ≠ [] ↔ ∃ s ∈ steps, ∃ name, s.array = some name
  last : ∀ call, calls.getLast? = some call → call = templateCall e (latest "cols" steps)
    (latest "rows" steps)

/-- How setting the pairs of a grid can end. -/
inductive GridEnds (cfg : Settings) (e : Entity) (f : Frame) (pairs : Fields) (st : State) :
    Except Fault Unit → State → Prop
  /-- All pairs are set, and behind them there may be one more call. -/
  | all {st₁ : State} {steps : List GridStep} {closing : Option Statement}
      (hpairs : InOrder cfg e f pairs st steps st₁)
      (hcalls : FinalCalls e steps (allCalls steps ++ closing.toList))
      (hclosed : ∀ s ∈ steps, ∀ name, s.array = some name → ClosedArray name st₁)
      (hplain : (∀ pair ∈ pairs, IsPlain e pair.1) → ∀ written : List Statement,
        closing.toList ++ st₁.body = written.reverse ++ st.body →
        written.filter isTemplateCall = allCalls steps ++ closing.toList) :
      GridEnds cfg e f pairs st (.ok ()) { st₁ with body := closing.toList ++ st₁.body }
  /-- A `with` block stops the run.  There are calls only if there were arrays for both columns and
  rows. -/
  | stopped {front tail : Fields} {v : Value} {st₁ st' : State} {steps : List GridStep}
      {fault : Fault}
      (hpairs : pairs = front ++ (Bytes.ofString "with", v) :: tail)
        (hfront : InOrder cfg e f front st steps st₁)
      (hstop : (applyWith cfg (instantiate cfg) e v f (f.at_.key "with")).outcome st₁ = some
        (.error fault, st'))
      (hcalls : allCalls steps ≠ [] ↔ (latest "cols" steps).isSome ∧ (latest "rows" steps).isSome)
      (hclosed : ∀ s ∈ steps, ∀ name, s.array = some name → ClosedArray name st₁) :
      GridEnds cfg e f pairs st (.error fault) st'

section

variable {cfg : Settings} {e : Entity} {f : Frame} {pairs : Fields} {st st' : State}
  {steps : List GridStep} {grid : Grid}

lemma isSome_latest_or_iff (h : InOrder cfg e f pairs st steps st') :
    ((latest "cols" steps).isSome || (latest "rows" steps).isSome) = true ↔
      ∃ s ∈ steps, ∃ name, s.array = some name := by
  rw [Bool.or_eq_true, isSome_latest_iff, isSome_latest_iff]
  constructor
  · rintro (⟨s, hs, -, harray⟩ | ⟨s, hs, -, harray⟩)
    · exact ⟨s, hs, harray⟩
    · exact ⟨s, hs, harray⟩
  · rintro ⟨s, hs, name, hname⟩
    obtain hkey | hkey := h.isTemplate s hs name hname
    · exact .inl ⟨s, hs, hkey, name, hname⟩
    · exact .inr ⟨s, hs, hkey, name, hname⟩

/-- The calls behind which the attributes end. -/
lemma gridEnds_finish (h : InOrder cfg e f pairs st steps st') (hreflects : Reflects e steps grid) :
    ∃ last, (finishGrid e grid).outcome st' = some (.ok (), last) ∧ GridEnds cfg e f pairs st
    (.ok ()) last := by
  obtain ⟨closing, hfinish, hfilter, hlast⟩ := hreflects.finish st'
  rw [hreflects.cols, hreflects.rows] at hlast
  refine ⟨_, hfinish, .all h ⟨?_, fun call hcall => ?_⟩ h.closed fun hplain written hwritten => ?_⟩
  · rw [← isSome_latest_or_iff h, Ne, ← List.getLast?_eq_none_iff, hlast]
    split <;> simp_all
  · rw [hlast] at hcall
    split at hcall
    · exact (Option.some.inj hcall).symm
    · cases hcall
  · have hwritten' : written = steps.flatMap GridStep.lines ++ closing.toList := by
      rw [h.body, ← List.append_assoc] at hwritten
      have hreverse := congrArg List.reverse (List.append_cancel_right hwritten)
      cases closing <;> simpa using hreverse.symm
    rw [hwritten', List.filter_append, h.filter_lines hplain, hfilter]

/-- Before the end, a grid is known to be called if both arrays are. -/
lemma allCalls_ne_nil_iff (h : Reflects e steps grid) :
    allCalls steps ≠ [] ↔ (latest "cols" steps).isSome ∧ (latest "rows" steps).isSome := by
  rw [← h.cols, ← h.rows, Ne, ← List.getLast?_eq_none_iff, h.last, h.emitted, ← Bool.and_eq_true]
  split <;> simp_all

lemma gridEnds_of_set (hgrid : e.nodeType = "grid")
    (h : (applyAttributes cfg (instantiate cfg) e pairs f {}).outcome st = some (.ok grid, st')) :
    ∃ last, (finishGrid e grid).outcome st' = some (.ok (), last) ∧ GridEnds cfg e f pairs st
    (.ok ()) last := by
  obtain ⟨front, rest, steps, st₁, grid₁, rfl, hfront, hreflects, hend⟩ :=
    inOrder_applyAttributes (grows_instantiate cfg) hgrid (reflects_nil e) h
  obtain ⟨rfl, rfl, hr⟩ | ⟨_, _, _, _, hr, _⟩ := hend
  · cases hr
    rw [List.append_nil]
    exact gridEnds_finish hfront hreflects
  · cases hr

lemma gridEnds_of_stop (hgrid : e.nodeType = "grid")
    (h : (applyAttributes cfg (instantiate cfg) e pairs f {}).outcome st = some
      (.error fault, st')) :
    GridEnds cfg e f pairs st (.error fault) st' := by
  obtain ⟨front, rest, steps, st₁, grid₁, rfl, hfront, hreflects, hend⟩ :=
    inOrder_applyAttributes (grows_instantiate cfg) hgrid (reflects_nil e) h
  obtain ⟨_, _, hr⟩ | ⟨v, tail, _, rfl, hr, hstop⟩ := hend
  · cases hr
  · cases hr
    exact .stopped rfl hfront hstop (allCalls_ne_nil_iff hreflects) hfront.closed

end

/-- **The templates of a grid take their last values.**  However often columns and rows are given,
in whatever order, between whatever other attributes, and whichever of them fail: if all attributes
are set, there is a call that sets the templates exactly if an array was made of some columns or
rows.  The last such call passes the array of the last columns and that of the last rows of which
one was made, and `NULL` where none was.  All arrays end as templates do.  The attributes are set
unless a `with` block stops the run.  If no `with` block is among them, and no attribute that names
the function itself, then the calls are all calls of the function that are written. -/
theorem grid_takes_last_templates (cfg : Settings) {e : Entity} (hgrid : e.nodeType = "grid")
    (f : Frame) (pairs : Fields) (st : State) :
    (∀ r st', (applyAttributes cfg (instantiate cfg) e pairs f {} >>= finishGrid e).outcome st =
      some (r, st') → GridEnds cfg e f pairs st r st') ∧
    ((∀ pair ∈ pairs, pair.1 ≠ "with") → ∃ st',
      (applyAttributes cfg (instantiate cfg) e pairs f {} >>= finishGrid e).outcome st = some
      (.ok (), st')) := by
  constructor
  · intro r st' h
    obtain ⟨grid, st₁, hset, hrest⟩ | ⟨fault, hstop, rfl⟩ := outcome_bind_eq_some.1 h
    · obtain ⟨last, hfinish, hends⟩ := gridEnds_of_set hgrid hset
      rw [hrest] at hfinish
      cases hfinish
      exact hends
    · exact gridEnds_of_stop hgrid hstop
  · intro hpairs
    obtain ⟨grid, st₁, hset⟩ :=
      exists_outcome_applyAttributes cfg (instantiate cfg) e f {} st hpairs
    obtain ⟨last, hfinish, -⟩ := gridEnds_of_set hgrid hset
    exact ⟨last, outcome_bind_eq_some.2 (.inl ⟨grid, st₁, hset, hfinish⟩)⟩

def gridEntity : Entity where
  cname := "grid_1"
  ctype := "lv_obj_t *"
  isPointer := true
  nodeType := "grid"
  setterPrefix := "lv_obj"

/-- What setting the pairs of that grid comes to: whether it succeeds, and the state that it leaves.
-/
def setGrid (pairs : Fields) : Option (Bool × State) :=
  ((applyAttributes bareSettings (instantiate bareSettings) gridEntity pairs
    (rootFrame bareSettings) {} >>=
    finishGrid gridEntity).outcome {}).map fun outcome => (outcome.1.isOk, outcome.2)

/-- Rows that are given once more and fail, and columns that fail first and are given twice more. -/
def restlessGrid : Fields :=
  [("rows", .arr []), ("cols", .num "5"), ("cols", .arr []), ("rows", .str "'high'"),
    ("cols", .arr [])]

set_option maxRecDepth 100000 in
theorem restlessGrid_takes_last_templates :
    gridEntity.nodeType = "grid" ∧ ∃ st',
      (applyAttributes bareSettings (instantiate bareSettings) gridEntity restlessGrid
        (rootFrame bareSettings) {} >>= finishGrid gridEntity).outcome {} = some (.ok (), st') ∧
      st'.body.head? = some (templateCall gridEntity (some "grid_1_cols_2") (some "grid_1_rows")) ∧
      GridEnds bareSettings gridEntity (rootFrame bareSettings) restlessGrid {} (.ok ()) st' := by
  obtain ⟨hends, hset⟩ :=
    grid_takes_last_templates bareSettings (show gridEntity.nodeType = "grid" from rfl)
    (rootFrame bareSettings) restlessGrid {}
  obtain ⟨st', hst'⟩ := hset (by decide)
  have hhead : (setGrid restlessGrid).bind (fun outcome => outcome.2.body.head?) =
      some (templateCall gridEntity (some "grid_1_cols_2") (some "grid_1_rows")) := by
    cbv
  rw [setGrid, hst'] at hhead
  exact ⟨rfl, st', hst', hhead, hends _ _ hst'⟩

set_option maxRecDepth 100000 in
/-- A `with` block that sets the columns of the same grid passes no rows, though there are rows, and
one that stops the run leaves columns without a call. -/
theorem with_block_loses_templates :
    (setGrid
        [("cols", .arr []), ("rows", .arr []),
          ("with", .obj [("do", .obj [("cols", .arr [])])])]).map
        (fun outcome => (outcome.1, outcome.2.body)) =
      some (true, [templateCall gridEntity (some "grid_1_cols_2") none,
        templateCall gridEntity (some "grid_1_cols") (some "grid_1_rows")]) ∧
    (setGrid [("cols", .arr []), ("with", .num "5")]).map
        (fun outcome => (outcome.1, outcome.2.body, outcome.2.definitions)) =
      some (false, [], [.array "grid_1_cols" templateType [.text gridTemplateLast]]) := by
  constructor <;> cbv

end UiCodegen.Transpile
