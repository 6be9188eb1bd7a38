import UiCodegen.Proofs.Arguments
import UiCodegen.Proofs.Naming

/-!
# What a run does to its state

Everything that a run does is a sequence of a dozen elementary effects: it remembers answers,
reports a problem, defines a static object, creates a widget or a style, writes a call, keeps a
value in a local, registers an entity or defines a component.  `Effect` lists them, each with what
is known at the time: that the entities in the code which is written are declared, that static
objects in it are defined, and that calls in it pass as many arguments as the function takes.
`UiCodegen.Proofs.Traces` shows that every outcome is reached by effects of this list, so an
invariant of the generated code is a property that each of them keeps.

An expression is judged by the expressions inside it (`Expr.within`), one at a time.
-/

namespace UiCodegen.Transpile

variable (cfg : Settings)

/-! ## The parts of the code -/

namespace Expr

mutual

/-- An expression and all expressions inside it. -/
def within : Expr → List Expr
  | .text s => [.text s]
  | .static name => [.static name]
  | .entity e => [.entity e]
  | .call function args => .call function args :: withinAll args
  | .registered ctype name tag => [.registered ctype name tag]
  | .compound ctype parts => .compound ctype parts :: withinParts parts

def withinAll : List Expr → List Expr
  | [] => []
  | e :: rest => e.within ++ withinAll rest

def withinParts : List (Bytes × Expr) → List Expr
  | [] => []
  | (_, e) :: rest => e.within ++ withinParts rest

end

lemma mem_withinAll {x : Expr} {es : List Expr} : x ∈ withinAll es ↔ ∃ e ∈ es, x ∈ e.within := by
  induction es with
  | nil => simp [withinAll]
  | cons e rest ih => simp [withinAll, ih]

lemma mem_withinParts {x : Expr} {parts : List (Bytes × Expr)} :
    x ∈ withinParts parts ↔ ∃ part ∈ parts, x ∈ part.2.within := by
  induction parts with
  | nil => simp [withinParts]
  | cons part rest ih => simp [withinParts, ih]

end Expr

def Statement.exprs : Statement → List Expr
  | comment _ => []
  | create _ _ constructor parent => [.call constructor [.entity parent]]
  | initStyle _ => []
  | call function args => [.call function args]
  | assign _ _ e => [e]

def Statement.within (s : Statement) : List Expr := Expr.withinAll s.exprs

def Definition.within : Definition → List Expr
  | array _ _ items => Expr.withinAll items
  | string _ _ | style _ | registryLookup => []

/-! ## What code may refer to -/

/-- The variable of an entity is the parameter of the generated function, or the code so far
declares it and gives it its value. -/
inductive State.Declares (cfg : Settings) (st : State) : Entity → Prop
  | parent : st.Declares cfg (rootFrame cfg).parent
  | widget {e : Entity} (hpointer : e.isPointer = true) {constructor : Bytes} {parent : Entity}
      (hcreate : .create e.ctype e.cname constructor parent ∈ st.body) : st.Declares cfg e
  | style {e : Entity} (hvalue : e.isPointer = false)
      (hdefinition : .style e.cname ∈ st.definitions)
      (hinit : .initStyle e.cname ∈ st.body) : st.Declares cfg e
  | kept {e : Entity} (hpointer : e.isPointer = true) (hlocal : ⟨e.ctype, e.cname⟩ ∈ st.locals)
      {cast : Option Bytes} {value : Expr} (hassign : .assign e.cname cast value ∈ st.body) :
      st.Declares cfg e

/-- What the outermost part of an expression refers to is there: the variable of an entity, a static
object or the function that looks up entities by name. -/
def State.Resolves (st : State) : Expr → Prop
  | .entity e => st.Declares cfg e
  | .static name => name ∈ st.definitions.map Definition.name
  | .registered .. => .registryLookup ∈ st.definitions
  | .text _ | .call .. | .compound .. => True

def State.Admits (st : State) (e : Expr) : Prop :=
  ∀ x ∈ e.within, st.Resolves cfg x ∧ x.Fits cfg

section

variable {cfg : Settings} {st : State}

lemma admits_text (s : Bytes) : st.Admits cfg (.text s) := by
  simp [State.Admits, Expr.within, State.Resolves, Expr.Fits]

lemma admits_static {name : Bytes} (h : name ∈ st.definitions.map Definition.name) :
    st.Admits cfg (.static name) := by
  simpa [State.Admits, Expr.within, State.Resolves, Expr.Fits] using h

lemma admits_entity {e : Entity} (h : st.Declares cfg e) : st.Admits cfg (.entity e) := by
  simpa [State.Admits, Expr.within, State.Resolves, Expr.Fits] using h

lemma admits_registered (h : .registryLookup ∈ st.definitions) (ctype name tag : Bytes) :
    st.Admits cfg (.registered ctype name tag) := by
  simpa [State.Admits, Expr.within, State.Resolves, Expr.Fits] using h

lemma admits_call {function : Bytes} {args : List Expr} (hfits : (Expr.call function args).Fits cfg)
    (hargs : ∀ e ∈ args, st.Admits cfg e) : st.Admits cfg (.call function args) := by
  intro x hx
  rw [Expr.within, List.mem_cons] at hx
  obtain rfl | hx := hx
  · exact ⟨trivial, hfits⟩
  · obtain ⟨e, he, hxe⟩ := Expr.mem_withinAll.1 hx
    exact hargs e he x hxe

lemma admits_compound {ctype : Bytes} {parts : List (Bytes × Expr)}
    (hparts : ∀ part ∈ parts, st.Admits cfg part.2) : st.Admits cfg (.compound ctype parts) := by
  intro x hx
  rw [Expr.within, List.mem_cons] at hx
  obtain rfl | hx := hx
  · exact ⟨trivial, trivial⟩
  · obtain ⟨part, hpart, hxe⟩ := Expr.mem_withinParts.1 hx
    exact hparts part hpart x hxe

end

/-! ## Names -/

/-- A stem with a number behind it, as the variables of entities are named.  The parameter of the
generated function need not be named so; no attribute is ever set on it. -/
def IsNumbered (name : Bytes) : Prop := ∃ stem n, name = numbered stem n

/-- What static arrays are named by: the entity and attribute they are made for, the function they
are an argument of, or neither. -/
inductive ArrayBase : Bytes → Prop
  | entity {entity : Bytes} (hentity : IsNumbered entity) (part : Bytes) :
      ArrayBase (entity ++ "_" ++ part)
  | argument (function : Bytes) : ArrayBase (C.identifier function ++ "_arg")
  | plain : ArrayBase "c_arr"

/-- The name that is given when a base is asked for the `k`th time. -/
def nameOfRequest (base : Bytes) (k : Nat) : Bytes := if k = 1 then base else numbered base k

/-! ## Effects -/

namespace State

variable (st : State)

def requests (base : Bytes) : Nat := (st.asked.lookup base).getD 0

def withString (text : Bytes) : State :=
  let name := numbered "c_str" (st.strings.length + 1)
  { st with
    strings := (text, name) :: st.strings
    definitions := .string name text :: st.definitions }

def withArray (base elemType : Bytes) (items : List Expr) : State :=
  let k := st.requests base + 1
  { st with
    asked := (base, k) :: st.asked
    definitions := .array (nameOfRequest base k) elemType items :: st.definitions }

def withLookup : State :=
  { st with lookupDeclared := true, definitions := .registryLookup :: st.definitions }

def withStyle : State :=
  let name := numbered "c_style" (st.counter + 1)
  { st with
    counter := st.counter + 1
    definitions := .style name :: st.definitions
    body := .initStyle name :: st.body
    entities := st.entities + 1 }

def withWidget (stem ctype constructor : Bytes) (parent : Entity) : State :=
  { st with
    counter := st.counter + 1
    body := .create ctype (numbered stem (st.counter + 1)) constructor parent :: st.body
    entities := st.entities + 1 }

def withLocal (ctype : Bytes) (cast : Option Bytes) (value : Expr) : State :=
  let name := numbered "with" (st.withCount + 1)
  { st with
    withCount := st.withCount + 1
    locals := ⟨ctype, name⟩ :: st.locals
    body := .assign name cast value :: st.body }

end State

/-- Why a function cannot be used, if it cannot, as far as nothing is remembered about it. -/
def verdict (f : Api.FunctionInfo) : StateM Api.Sizes (Option Uncallable) :=
  if cfg.filter.allows f.name then do
    let u ← cfg.index.unrepresentable? f
    pure (u.map .unrepresentable)
  else pure (some (.filtered f.name))

/-- How what is remembered about functions and about the sizes of types can change at a time: it
stays as it is, or a function of the API is asked about. -/
inductive Remembers (cfg : Settings) (callable : List (Bytes × Option Uncallable))
    (sizes : Api.Sizes) : List (Bytes × Option Uncallable) → Api.Sizes → Prop
  | nothing : Remembers cfg callable sizes callable sizes
  | answer {f : Api.FunctionInfo} (hf : cfg.index.function? f.name = some f) :
      Remembers cfg callable sizes ((f.name, ((verdict cfg f).run sizes).1) :: callable)
        ((verdict cfg f).run sizes).2

/-- What a run can do to its state at a time. -/
inductive Effect (cfg : Settings) (st : State) : State → Prop
  | remember {callable : List (Bytes × Option Uncallable)} {sizes : Api.Sizes}
      (h : Remembers cfg st.callable st.sizes callable sizes) (log : List Log.Record) :
      Effect cfg st { st with callable, sizes, log }
  | report (p : Problem) (at_ : Pointer) : Effect cfg st (st.reported p at_)
  | string (text : Bytes) : Effect cfg st (st.withString text)
  | array {base : Bytes} (hbase : ArrayBase base) (elemType : Bytes) {items : List Expr}
      (hitems : ∀ e ∈ items, st.Admits cfg e) : Effect cfg st (st.withArray base elemType items)
  | lookup (hnew : st.lookupDeclared = false) : Effect cfg st st.withLookup
  | style : Effect cfg st st.withStyle
  | widget (stem ctype : Bytes) {constructor : Bytes} {parent : Entity}
      (hcall : st.Admits cfg (.call constructor [.entity parent])) :
      Effect cfg st (st.withWidget stem ctype constructor parent)
  | call {function : Bytes} {args : List Expr} (hcall : st.Admits cfg (.call function args)) :
      Effect cfg st { st with body := .call function args :: st.body }
  /-- The templates of a grid are set whether or not the API has the function for it. -/
  | grid {e : Entity} (he : st.Declares cfg e) {g : Grid}
      (hcols : ∀ name ∈ g.cols, name ∈ st.definitions.map Definition.name)
      (hrows : ∀ name ∈ g.rows, name ∈ st.definitions.map Definition.name) :
      Effect cfg st { st with body := gridCall e g :: st.body }
  | keep (ctype : Bytes) (cast : Option Bytes) {value : Expr} (hvalue : st.Admits cfg value) :
      Effect cfg st (st.withLocal ctype cast value)
  | register (key : Bytes) {e : Entity} (he : st.Declares cfg e) (hname : IsNumbered e.cname)
      (log : List Log.Record) :
      Effect cfg st { st with registry := (st.registry.register key e).1, log }
  | component (name : Bytes) (root : Fields) :
      Effect cfg st { st with components := (name, root) :: st.components }

abbrev History : State → State → Prop := Relation.ReflTransGen (Effect cfg)

/-! ## Nothing is taken back -/

/-- The code of the first state is in the code of the second. -/
structure State.Extends (st st' : State) : Prop where
  definitions : st.definitions ⊆ st'.definitions
  locals : st.locals ⊆ st'.locals
  body : st.body ⊆ st'.body

namespace State.Extends

lemma of_eq {st st' : State} (hdefinitions : st'.definitions = st.definitions)
    (hlocals : st'.locals = st.locals) (hbody : st'.body = st.body) : st.Extends st' :=
  ⟨hdefinitions ▸ List.Subset.refl _, hlocals ▸ List.Subset.refl _, hbody ▸ List.Subset.refl _⟩

lemma trans {st₁ st₂ st₃ : State} (h : st₁.Extends st₂) (h' : st₂.Extends st₃) : st₁.Extends st₃ :=
  ⟨List.Subset.trans h.definitions h'.definitions, List.Subset.trans h.locals h'.locals,
    List.Subset.trans h.body h'.body⟩

end State.Extends

section

variable {cfg : Settings} {st st' : State} {key name path : Bytes}

lemma Effect.extends (h : Effect cfg st st') : st.Extends st' := by
  cases h with
  | remember => exact .of_eq rfl rfl rfl
  | report => exact ⟨List.Subset.refl _, List.Subset.refl _, List.subset_cons_self _ _⟩
  | string | array | lookup =>
      exact ⟨List.subset_cons_self _ _, List.Subset.refl _, List.Subset.refl _⟩
  | style => exact ⟨List.subset_cons_self _ _, List.Subset.refl _, List.subset_cons_self _ _⟩
  | widget | call | grid =>
      exact ⟨List.Subset.refl _, List.Subset.refl _, List.subset_cons_self _ _⟩
  | keep => exact ⟨List.Subset.refl _, List.subset_cons_self _ _, List.subset_cons_self _ _⟩
  | register => exact .of_eq rfl rfl rfl
  | component => exact .of_eq rfl rfl rfl

lemma History.extends (h : History cfg st st') : st.Extends st' := by
  induction h with
  | refl => exact .of_eq rfl rfl rfl
  | tail _ hstep ih => exact ih.trans hstep.extends

lemma State.Declares.mono {e : Entity} (he : st.Declares cfg e) (h : st.Extends st') :
    st'.Declares cfg e := by
  cases he with
  | parent => exact .parent
  | widget hpointer hcreate => exact .widget hpointer (h.body hcreate)
  | style hvalue hdefinition hinit => exact .style hvalue (h.definitions hdefinition) (h.body hinit)
  | kept hpointer hlocal hassign => exact .kept hpointer (h.locals hlocal) (h.body hassign)

lemma State.Resolves.mono {x : Expr} (hx : st.Resolves cfg x) (h : st.Extends st') :
    st'.Resolves cfg x := by
  cases x with
  | entity e => exact State.Declares.mono hx h
  | static name => exact List.map_subset _ h.definitions hx
  | registered => exact h.definitions hx
  | text | call | compound => trivial

lemma State.Admits.mono {e : Expr} (he : st.Admits cfg e) (h : st.Extends st') : st'.Admits cfg e :=
  fun x hx => ⟨(he x hx).1.mono h, (he x hx).2⟩

/-! ## Lines are written one at a time -/

lemma resolves_gridCall {e : Entity} (he : st.Declares cfg e) {g : Grid}
    (hcols : ∀ name ∈ g.cols, name ∈ st.definitions.map Definition.name)
    (hrows : ∀ name ∈ g.rows, name ∈ st.definitions.map Definition.name) :
    ∀ x ∈ (gridCall e g).within, st.Resolves cfg x := by
  have harray : ∀ name : Option Bytes, (∀ n ∈ name, n ∈ st.definitions.map Definition.name) →
      st.Admits cfg ((name.map Expr.static).getD (.text "NULL")) := by
    intro name hname
    cases name with
    | none => exact admits_text _
    | some n => exact admits_static (hname n rfl)
  intro x hx
  simp only [gridCall, Statement.within, Statement.exprs, Expr.withinAll, Expr.within,
    List.append_nil, List.cons_append, List.mem_cons, List.mem_append, List.nil_append] at hx
  obtain rfl | rfl | hx | hx := hx
  · trivial
  · exact he
  · exact (harray g.cols hcols x hx).1
  · exact (harray g.rows hrows x hx).1

/-- An effect writes at most one statement.  What the statement refers to is there before it, and
the calls in it fit, unless it sets the templates of a grid. -/
lemma Effect.body_cases (h : Effect cfg st st') :
    st'.body = st.body ∨ ∃ s, st'.body = s :: st.body ∧ (∀ x ∈ s.within, st.Resolves cfg x) ∧
      ((∀ x ∈ s.within, x.Fits cfg) ∨ ∃ e g, s = gridCall e g) := by
  have hadmitted : ∀ (s : Statement) (e : Expr), s.exprs = [e] → st.Admits cfg e →
      (∀ x ∈ s.within, st.Resolves cfg x) ∧
        ((∀ x ∈ s.within, x.Fits cfg) ∨ ∃ e g, s = gridCall e g) := by
    intro s e hexprs he
    have hwithin : s.within = e.within := by simp [Statement.within, hexprs, Expr.withinAll]
    rw [hwithin]
    exact ⟨fun x hx => (he x hx).1, .inl fun x hx => (he x hx).2⟩
  cases h with
  | remember | string | array | lookup | register | component => exact .inl rfl
  | report | style =>
      exact .inr ⟨_, rfl, by simp [Statement.within, Statement.exprs, Expr.withinAll]⟩
  | widget stem ctype hcall | call hcall => exact .inr ⟨_, rfl, hadmitted _ _ rfl hcall⟩
  | grid he hcols hrows => exact .inr ⟨_, rfl, resolves_gridCall he hcols hrows, .inr ⟨_, _, rfl⟩⟩
  | keep ctype cast hvalue => exact .inr ⟨_, rfl, hadmitted _ _ rfl hvalue⟩

/-- An effect adds at most one definition.  What is in it refers to what is there, and the calls in
it fit. -/
lemma Effect.definitions_cases (h : Effect cfg st st') :
    st'.definitions = st.definitions ∨ ∃ d, st'.definitions = d :: st.definitions ∧
      ∀ x ∈ d.within, st.Resolves cfg x ∧ x.Fits cfg := by
  cases h with
  | remember | report | widget | call | grid | keep | register | component => exact .inl rfl
  | string text | lookup | style => exact .inr ⟨_, rfl, by simp [Definition.within]⟩
  | array hbase elemType hitems =>
    refine .inr ⟨_, rfl, fun x hx => ?_⟩
    obtain ⟨e, he, hxe⟩ := Expr.mem_withinAll.1 hx
    exact hitems e he x hxe

/-! ## What the state remembers is in the code -/

/-- Registered entities are declared and named by a number, strings that are remembered are defined,
and so is the lookup of entities by name if it is said to be. -/
structure State.Sound (cfg : Settings) (st : State) : Prop where
  registry : ∀ entry ∈ st.registry.entries, st.Declares cfg entry.2 ∧ IsNumbered entry.2.cname
  strings : ∀ entry ∈ st.strings, entry.2 ∈ st.definitions.map Definition.name
  lookup : st.lookupDeclared = true → .registryLookup ∈ st.definitions

lemma mem_insert {e : Entity} {entries : List (Bytes × Entity)} {entry : Bytes × Entity}
    (h : entry ∈ Registry.insert key e entries) : entry.2 = e ∨ entry ∈ entries := by
  induction entries with
  | nil => simp_all [Registry.insert]
  | cons first rest ih =>
    unfold Registry.insert at h
    split at h
    · obtain rfl | h := List.mem_cons.1 h
      · exact .inl rfl
      · exact .inr (List.mem_cons_of_mem _ h)
    · obtain rfl | h := List.mem_cons.1 h
      · exact .inr List.mem_cons_self
      · exact (ih h).imp_right (List.mem_cons_of_mem _)

lemma mem_of_lookup {α : Type} {a : α} {entries : List (Bytes × α)}
    (h : entries.lookup key = some a) : (key, a) ∈ entries := by
  obtain ⟨front, back, rfl, -⟩ := List.lookup_eq_some_iff.1 h
  simp

lemma mem_of_resolve? {r : Registry} {e : Entity} (h : r.resolve? name path = some e) :
    ∃ key, (key, e) ∈ r.entries := by
  have hget : ∀ {key : Bytes}, r.get? key = some e → ∃ key, (key, e) ∈ r.entries :=
    fun hkey => ⟨_, mem_of_lookup hkey⟩
  simp only [Registry.resolve?, Option.orElse_eq_orElse, Option.orElse_eq_or,
    Option.or_eq_some_iff] at h
  obtain h | ⟨-, h | ⟨-, h⟩⟩ := h
  · exact hget h
  · split at h
    · cases h
    · exact hget h
  · exact hget h

lemma Effect.sound (h : Effect cfg st st') (hst : st.Sound cfg) : st'.Sound cfg := by
  have hextends := h.extends
  have hregistry : ∀ entry ∈ st.registry.entries, st'.Declares cfg entry.2 ∧
      IsNumbered entry.2.cname :=
    fun entry hentry => ⟨(hst.registry entry hentry).1.mono hextends, (hst.registry entry hentry).2⟩
  have hstrings : ∀ entry ∈ st.strings, entry.2 ∈ st'.definitions.map Definition.name :=
    fun entry hentry => List.map_subset _ hextends.definitions (hst.strings entry hentry)
  have hlookup : st.lookupDeclared = true → .registryLookup ∈ st'.definitions :=
    fun hdeclared => hextends.definitions (hst.lookup hdeclared)
  cases h with
  | register key he hname log =>
    refine ⟨fun entry hentry => ?_, hstrings, hlookup⟩
    obtain heq | hold := mem_insert hentry
    · rw [heq]
      exact ⟨he.mono hextends, hname⟩
    · exact hregistry entry hold
  | string text =>
    exact ⟨hregistry, List.forall_mem_cons.2 ⟨List.mem_cons_self, hstrings⟩, hlookup⟩
  | lookup => exact ⟨hregistry, hstrings, fun _ => List.mem_cons_self⟩
  | remember | report | array | style | widget | call | grid | keep | component =>
    exact ⟨hregistry, hstrings, hlookup⟩

lemma History.sound (h : History cfg st st') (hst : st.Sound cfg) : st'.Sound cfg := by
  induction h with
  | refl => exact hst
  | tail _ hstep ih => exact hstep.sound ih

lemma State.Sound.of_resolve? (hst : st.Sound cfg) {e : Entity}
    (h : st.registry.resolve? name path = some e) : st.Declares cfg e ∧ IsNumbered e.cname := by
  obtain ⟨key, hentry⟩ := mem_of_resolve? h
  exact hst.registry _ hentry

end

end UiCodegen.Transpile
