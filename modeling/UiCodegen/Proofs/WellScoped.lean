import UiCodegen.Proofs.Traces

/-!
# The generated code is well scoped

The body of the generated function is a list of statements, the latest first.  A statement may use
the parameter of the function, and the variables that statements in front of it brought to life:
widgets that an earlier line declares, styles that are defined at file scope and that an earlier
line initialises, and locals that an earlier line assigns.  Static strings and arrays are defined at
file scope.  No two widgets or styles share a name, because their names end in a number that is used
once.

The initializers of a static array stand at file scope, where the variables of the function are not
declared.  A call in them may name such a variable all the same, so file scope is well scoped if and
only if no initializer does.

All of it is an invariant of the effects of a run, so it holds after any sequence of runs on one
state, whether or not they fail.
-/

namespace UiCodegen.Transpile

/-! ## The variables of the code -/

def Statement.created? : Statement → Option Bytes
  | create _ name _ _ => some name
  | initStyle name => some name
  | comment _ | call _ _ | assign _ _ _ => none

def Statement.initialised? : Statement → Option Bytes
  | initStyle name => some name
  | comment _ | create _ _ _ _ | call _ _ | assign _ _ _ => none

def Statement.assigned? : Statement → Option Bytes
  | assign name _ _ => some name
  | comment _ | create _ _ _ _ | initStyle _ | call _ _ => none

/-- What the outermost part of an expression refers to is defined by definitions at file scope.
Variables of the generated function are not. -/
def Expr.DefinedBy (definitions : List Definition) : Expr → Prop
  | .entity e => e.isPointer = false ∧ .style e.cname ∈ definitions
  | .static name => name ∈ definitions.map Definition.name
  | .registered .. => .registryLookup ∈ definitions
  | .text _ | .call .. | .compound .. => True

/-- An expression that is a variable of the generated function. -/
def Expr.IsVariable (x : Expr) : Prop := ∃ e, x = .entity e ∧ e.isPointer = true

def Definition.style? : Definition → Option Bytes
  | style name => some name
  | string _ _ | array _ _ _ | registryLookup => none

namespace State

variable (st : State)

/-- The variables of the widgets and styles of the code, the latest first. -/
def created : List Bytes := st.body.filterMap Statement.created?

/-- Styles are initialised in the order of their definitions, and locals assigned in the order of
their declarations. -/
structure InStep : Prop where
  styles : st.body.filterMap Statement.initialised? = st.definitions.filterMap Definition.style?
  locals : st.body.filterMap Statement.assigned? = st.locals.map Local.name

/-- Every name of a widget or style ends in its own number, and there are as many as have been
counted. -/
structure CreatedOnce : Prop where
  numbered : ∀ name ∈ st.created, ∃ stem n, name = numbered stem n ∧ n ≤ st.counter
  nodup : st.created.Nodup
  count : st.created.length = st.entities

/-- Each statement refers to what the statements in front of it have brought to life, and to what is
defined at file scope. -/
def Scoped (cfg : Settings) : Prop :=
  ∀ s older, (s :: older) <:+ st.body → ∀ x ∈ s.within,
    ({ st with body := older } : State).Resolves cfg x

/-- Each definition refers to what the definitions in front of it define. -/
def FileScoped :
    Prop := ∀ d older, (d :: older) <:+ st.definitions → ∀ x ∈ d.within, x.DefinedBy older

/-- The same but for variables of the generated function. -/
def FileScopedButVariables : Prop :=
  ∀ d older, (d :: older) <:+ st.definitions → ∀ x ∈ d.within, ¬ x.IsVariable → x.DefinedBy older

end State

/-! ## The invariants -/

section

variable {cfg : Settings} {st st' : State}

lemma Effect.inStep (h : Effect cfg st st') (hst : st.InStep) : st'.InStep := by
  obtain ⟨hstyles, hlocals⟩ := hst
  cases h with
  | remember | report | string | array | lookup | widget | call | grid | register | component =>
    exact ⟨hstyles, hlocals⟩
  | style => exact ⟨congrArg (List.cons _) hstyles, hlocals⟩
  | keep => exact ⟨hstyles, congrArg (List.cons _) hlocals⟩

lemma State.CreatedOnce.next (hst : st.CreatedOnce) {stem : Bytes}
    (hcreated : st'.created = Transpile.numbered stem (st.counter + 1) :: st.created)
    (hcounter : st'.counter = st.counter + 1) (hentities : st'.entities = st.entities + 1) :
    st'.CreatedOnce := by
  refine ⟨fun name hname => ?_, ?_, ?_⟩
  · rw [hcreated] at hname
    obtain rfl | hname := List.mem_cons.1 hname
    · exact ⟨stem, st.counter + 1, rfl, by omega⟩
    · obtain ⟨stem', n, rfl, hn⟩ := hst.numbered name hname
      exact ⟨stem', n, rfl, by omega⟩
  · rw [hcreated]
    refine List.nodup_cons.2 ⟨fun hmem => ?_, hst.nodup⟩
    -- The numbers of earlier names have all been counted.
    obtain ⟨stem', n, hname, hn⟩ := hst.numbered _ hmem
    obtain ⟨-, rfl⟩ := numbered_inj.1 hname
    omega
  · rw [hcreated, List.length_cons, hst.count, hentities]

lemma State.CreatedOnce.same (hst : st.CreatedOnce) (hcreated : st'.created = st.created)
    (hcounter : st'.counter = st.counter) (hentities : st'.entities = st.entities) :
    st'.CreatedOnce :=
  ⟨fun name hname => by rw [hcounter]; exact hst.numbered name (hcreated ▸ hname),
    hcreated ▸ hst.nodup, by rw [hcreated, hst.count, hentities]⟩

lemma Effect.createdOnce (h : Effect cfg st st') (hst : st.CreatedOnce) : st'.CreatedOnce := by
  cases h with
  | style | widget => exact hst.next rfl rfl rfl
  | remember | report | string | array | lookup | call | grid | keep | register | component =>
    exact hst.same rfl rfl rfl

/-- What a new statement refers to is there when it is written. -/
lemma Effect.scoped (h : Effect cfg st st') (hst : st.Scoped cfg) : st'.Scoped cfg := by
  have hextends := h.extends
  -- Definitions and locals that are added later hide nothing.
  have hmore : ∀ body, ({ st with body := body } : State).Extends { st' with body := body } :=
    fun body => ⟨hextends.definitions, hextends.locals, List.Subset.refl _⟩
  intro s older hsuffix x hx
  obtain hbody | ⟨line, hbody, hline, -⟩ := h.body_cases
  · exact (hst s older (hbody ▸ hsuffix) x hx).mono (hmore older)
  · rw [hbody, List.suffix_cons_iff] at hsuffix
    obtain heq | hsuffix := hsuffix
    · cases heq
      exact (hline x hx).mono (hmore st.body)
    · exact (hst s older hsuffix x hx).mono (hmore older)

lemma State.Resolves.definedBy {x : Expr} (h : st.Resolves cfg x) (hx : ¬ x.IsVariable) :
    x.DefinedBy st.definitions := by
  cases x with
  | entity e =>
    cases h with
    | parent => exact absurd ⟨_, rfl, rfl⟩ hx
    | widget hpointer | kept hpointer => exact absurd ⟨e, rfl, hpointer⟩ hx
    | style hvalue hdefinition => exact ⟨hvalue, hdefinition⟩
  | static | registered => exact h
  | text | call | compound => trivial

lemma Effect.fileScoped (h : Effect cfg st st') (hst : st.FileScopedButVariables) :
    st'.FileScopedButVariables := by
  intro d older hsuffix x hx hvariable
  obtain hdefinitions | ⟨d', hdefinitions, hd⟩ := h.definitions_cases
  · exact hst d older (hdefinitions ▸ hsuffix) x hx hvariable
  · rw [hdefinitions, List.suffix_cons_iff] at hsuffix
    obtain heq | hsuffix := hsuffix
    · cases heq
      exact (hd x hx).1.definedBy hvariable
    · exact hst d older hsuffix x hx hvariable

lemma State.FileScopedButVariables.iff (h : st.FileScopedButVariables) :
    st.FileScoped ↔ ∀ d ∈ st.definitions, ∀ x ∈ d.within, ¬ x.IsVariable := by
  constructor
  · rintro hst d hd x hx ⟨e, rfl, hpointer⟩
    obtain ⟨front, older, heq⟩ := List.append_of_mem hd
    have hvalue : e.isPointer = false := (hst d older ⟨front, heq.symm⟩ _ hx).1
    simp [hvalue] at hpointer
  · intro hnone d older hsuffix x hx
    exact h d older hsuffix x hx (hnone d (hsuffix.subset (.head _)) x hx)

/-! ## Sessions -/

/-- **The code of a session is well scoped.**  After any sequence of runs, no two widgets or styles
that were created share a name, and each of them that was counted has one; every statement refers
only to the parameter, to widgets declared in front of it, to styles and locals that are declared
and that a statement in front of it gave their value, and to what is defined at file scope; and
styles and locals are declared in the order in which they get their values.  Definitions at file
scope refer only to definitions in front of them if and only if no variable of the function is in an
initializer. -/
theorem session_code_well_scoped (h : Session cfg st) :
    st.created.Nodup ∧ st.created.length = st.entities ∧ st.Scoped cfg ∧ st.InStep ∧
      (st.FileScoped ↔ ∀ d ∈ st.definitions, ∀ x ∈ d.within, ¬ x.IsVariable) := by
  have hcreated : st.CreatedOnce :=
    h.invariant (fun _ => ⟨by simp [State.created], by simp [State.created], rfl⟩) fun _ _ =>
      Effect.createdOnce
  have hscoped : st.Scoped cfg :=
    h.invariant (fun _ s older hsuffix => by simp at hsuffix) fun _ _ => Effect.scoped
  have hinStep : st.InStep := h.invariant (fun _ => ⟨rfl, rfl⟩) fun _ _ => Effect.inStep
  have hfile : st.FileScopedButVariables :=
    h.invariant (fun _ d older hsuffix => by simp at hsuffix) fun _ _ => Effect.fileScoped
  exact ⟨hcreated.nodup, hcreated.count, hscoped, hinStep, hfile.iff⟩

end

def boxSettings : Settings := settingsOf [declare "lv_obj_create" "lv_obj_t *" ["lv_obj_t *"]]

def nestedBox : Value := .obj [("children", .arr [.obj [("type", .str "style")], .obj []])]

/-- The inner box is created in the outer one, which the line in front of it declares. -/
theorem nestedBox_code_well_scoped :
    ∃ st, Session boxSettings st ∧ st.created =
    (["obj_3", "c_style_2", "obj_1"].map Bytes.ofString) ∧
      st.created.Nodup ∧ st.created.length = st.entities ∧ st.Scoped boxSettings ∧ st.InStep ∧
        (st.FileScoped ↔ ∀ d ∈ st.definitions, ∀ x ∈ d.within, ¬ x.IsVariable) := by
  have hrun : ((run boxSettings nestedBox).outcome {}).map (fun r => r.2.created) =
      some (["obj_3", "c_style_2", "obj_1"].map Bytes.ofString) := by
    cbv
  obtain ⟨⟨r, st⟩, houtcome, hcreated⟩ := Option.map_eq_some_iff.1 hrun
  have hsession : Session boxSettings st := (Session.start []).run nestedBox houtcome
  exact ⟨st, hsession, hcreated, session_code_well_scoped hsession⟩

def measureSettings : Settings :=
  settingsOf [declare "lv_obj_create" "lv_obj_t *" ["lv_obj_t *"],
    declare "lv_obj_set_dims" "void" ["lv_obj_t *", "const int32_t *"],
    declare "lv_obj_get_x" "int32_t" ["lv_obj_t *"]]

/-- A box with an array of measures, the only one of which is taken of the box itself. -/
def measuredBox : Value := .obj [("dims", .arr [.obj [("call", .str "lv_obj_get_x")]])]

def measuredBoxEntity : Entity where
  cname := "obj_1"
  ctype := "lv_obj_t *"
  isPointer := true
  nodeType := "obj"
  setterPrefix := "lv_obj"

set_option maxRecDepth 100000 in
/-- The static array names the box, which the function behind it declares. -/
theorem measuredBox_array_not_scoped :
    ∃ st, Session measureSettings st ∧ (∃ d ∈ st.definitions,
        d.render = "static const int32_t obj_1_dims[] = \x7blv_obj_get_x(obj_1)\x7d;") ∧
      ¬ st.FileScoped := by
  have hrun : ((run measureSettings measuredBox).outcome {}).map (fun r => r.2.definitions) =
      some [.array "obj_1_dims" "int32_t" [.call "lv_obj_get_x" [.entity measuredBoxEntity]]] := by
    cbv
  obtain ⟨⟨r, st⟩, houtcome, hdefinitions⟩ := Option.map_eq_some_iff.1 hrun
  have hsession : Session measureSettings st := (Session.start []).run measuredBox houtcome
  dsimp only at hdefinitions
  refine ⟨st, hsession, ⟨_, hdefinitions ▸ List.mem_singleton_self _, by decide +kernel⟩,
    fun hscoped => ?_⟩
  have hbox : (Expr.entity measuredBoxEntity).DefinedBy [] := by
    rw [State.FileScoped, hdefinitions] at hscoped
    exact hscoped _ [] (List.suffix_refl _) _ (.tail _ (.head _))
  cases hbox.1

end UiCodegen.Transpile
