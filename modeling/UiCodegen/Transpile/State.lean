import UiCodegen.Api.Filter
import UiCodegen.EnumTable.Sources
import UiCodegen.Log
import UiCodegen.Transpile.Code
import UiCodegen.Transpile.Problem
import UiCodegen.Transpile.Scope

/-!
# The state of a run

A run walks over a document once and collects code, entities and diagnostics.  A fault ends the
processing of a node or attribute, but what was collected before it stays.  A run of a document
whose components use each other in a circle has no end, and therefore no outcome.
-/

namespace UiCodegen.Transpile

/-- What a run is given and never changes. -/
structure Settings where
  index : Api.Index
  enums : EnumTable
  filter : Api.Filter := {}
  /-- The name of the generated function behind `create_ui_`, as an identifier. -/
  name : Bytes := "main"
  parentParam : Bytes := "parent"
  /-- The path of the document, for the banner and for messages. -/
  source : Bytes := []

/-- What a run has collected.  Lists hold the latest element first. -/
structure State where
  definitions : List Definition := []
  locals : List Local := []
  body : List Statement := []
  registry : Registry := {}
  /-- Components by name, with the node they stand for. -/
  components : List (Bytes × Fields) := []
  counter : Nat := 0
  /-- The number of locals of `with` blocks. -/
  withCount : Nat := 0
  entities : Nat := 0
  /-- Texts that have a static string, with its name. -/
  strings : List (Bytes × Bytes) := []
  asked : List (Bytes × Nat) := []
  lookupDeclared : Bool := false
  /-- Which functions were asked about, and why they cannot be used. -/
  callable : List (Bytes × Option Uncallable) := []
  sizes : Api.Sizes := []
  diagnostics : List Diagnostic := []
  log : List Log.Record := []

/-- Steps of a run: they may fail, and what they did before stays done.  Steps that never come to an
end have no outcome. -/
abbrev Run := ExceptT Fault (StateT State Option)

/-- What steps come to from a state: a result or a fault, and the state they leave. -/
def Run.outcome {α : Type} (x : Run α) (st : State) : Option (Except Fault α × State) :=
  x.run.run st

def violate {α : Type} (v : Violation) (at_ : Pointer) : Run α := throw (.violation v at_)

def fail {α : Type} (p : Problem) (at_ : Pointer) : Run α := throw (.problem p at_)

def emit (s : Statement) : Run Unit := modify fun st => { st with body := s :: st.body }

def define (d : Definition) : Run Unit :=
  modify fun st => { st with definitions := d :: st.definitions }

def note (r : Log.Record) : Run Unit := modify fun st => { st with log := r :: st.log }

/-- Reports a problem: as a diagnostic, in the log and as a comment in the code. -/
def warn (p : Problem) (at_ : Pointer) : Run Unit := do
  let d : Diagnostic := { pointer := at_.display, message := p.message }
  modify fun st => { st with diagnostics := d :: st.diagnostics }
  note { level := .warn, message := d.message, attributes := [("pointer", d.pointer)] }
  emit (.comment ("lvglgen: " ++ d.text))

def State.reported (st : State) (p : Problem) (at_ : Pointer) : State :=
  let d : Diagnostic := { pointer := at_.display, message := p.message }
  { st with
    diagnostics := d :: st.diagnostics
    log := { level := .warn, message := d.message, attributes := [("pointer", d.pointer)] } ::
      st.log
    body := .comment ("lvglgen: " ++ d.text) :: st.body }

/-- Runs a step; a problem in it is reported, and then `otherwise` is the result. -/
def recover {α : Type} (otherwise : α) (step : Run α) : Run α :=
  tryCatch step fun fault =>
    match fault with
    | .problem p at_ => do
      warn p at_
      pure otherwise
    | fault => throw fault

def guarded (step : Run Unit) : Run Unit := recover () step

/-! ### Outcomes of steps

Statements about steps are statements about their outcomes; the rules below say what each way of
putting steps together does to them. -/

namespace Run

variable {α β : Type} (st : State)

@[simp] theorem outcome_pure (a : α) : (pure a : Run α).outcome st = some (.ok a, st) := rfl

@[simp] theorem outcome_throw (e : Fault) : (throw e : Run α).outcome st = some (.error e, st) :=
  rfl

@[simp] theorem outcome_get : (get : Run State).outcome st = some (.ok st, st) := rfl

@[simp] theorem outcome_modify (f : State → State) :
    (modify f : Run Unit).outcome st = some (.ok (), f st) := rfl

/-- What follows a step happens in the state that the step leaves, unless the step fails. -/
theorem outcome_bind (x : Run α) (k : α → Run β) :
    (x >>= k).outcome st =
      match x.outcome st with
      | none => none
      | some (.ok a, st') => (k a).outcome st'
      | some (.error e, st') => some (.error e, st') := by
  change (x >>= k) st = match x st with
    | none => none
    | some (.ok a, st') => k a st'
    | some (.error e, st') => some (.error e, st')
  simp only [bind, ExceptT.bind, ExceptT.mk, StateT.bind]
  cases x st with
  | none => rfl
  | some r => obtain ⟨_ | _, _⟩ := r <;> rfl

@[simp] theorem outcome_warn (p : Problem) (at_ : Pointer) :
    (warn p at_).outcome st = some (.ok (), st.reported p at_) := rfl

/-- A problem in a step is reported in the state that the step leaves; other outcomes stay. -/
theorem outcome_recover (otherwise : α) (x : Run α) :
    (recover otherwise x).outcome st =
      match x.outcome st with
      | some (.error (.problem p at_), st') => some (.ok otherwise, st'.reported p at_)
      | r => r := by
  change (recover otherwise x) st = match x st with
    | some (.error (.problem p at_), st') => some (.ok otherwise, st'.reported p at_)
    | r => r
  simp only [recover, tryCatch, tryCatchThe, MonadExceptOf.tryCatch, ExceptT.tryCatch, ExceptT.mk,
    bind, StateT.bind]
  cases x st with
  | none => rfl
  | some r =>
    match r with
    | (.ok _, _) => rfl
    | (.error (.violation _ _), _) => rfl
    | (.error (.problem _ _), _) => rfl

end Run

def register (key : Bytes) (e : Entity) : Run Unit := do
  let (registry, records) := (← get).registry.register key e
  modify fun st => { st with registry, log := records.reverse ++ st.log }

/-! ## Names at file scope -/

def numbered (stem : Bytes) (n : Nat) : Bytes := stem ++ "_" ++ Bytes.ofNat n

/-- A name at file scope: `base` itself the first time, and with a number behind it later. -/
def uniqueName (base : Bytes) : Run Bytes := do
  let n := ((← get).asked.lookup base).getD 0
  modify fun st => { st with asked := (base, n + 1) :: st.asked }
  pure (if n == 0 then base else numbered base (n + 1))

/-- The static string that holds a text; it is defined the first time. -/
def internString (text : Bytes) : Run Bytes := do
  match (← get).strings.lookup text with
  | some name => pure name
  | none =>
    let name := numbered "c_str" ((← get).strings.length + 1)
    modify fun st => { st with strings := (text, name) :: st.strings }
    define (.string name text)
    pure name

def staticArray (base elemType : Bytes) (items : List Expr) : Run Bytes := do
  let name ← uniqueName base
  define (.array name elemType items)
  pure name

/-- Declares the lookup of entities by name, once. -/
def declareLookup : Run Unit := do
  if !(← get).lookupDeclared then
    modify fun st => { st with lookupDeclared := true }
    define .registryLookup

/-! ## Functions -/

/-- Why a function cannot be used, if it cannot.  The answer is kept. -/
def uncallable? (cfg : Settings) (f : Api.FunctionInfo) : Run (Option Uncallable) := do
  match (← get).callable.lookup f.name with
  | some answer => pure answer
  | none =>
    let answer ←
      if cfg.filter.allows f.name then do
        let (u, sizes) := (cfg.index.unrepresentable? f).run (← get).sizes
        modify fun st => { st with sizes }
        pure (u.map .unrepresentable)
      else pure (some (.filtered f.name))
    modify fun st => { st with callable := (f.name, answer) :: st.callable }
    pure answer

/-- The type of the parameter that is filled with zero if it is left out. -/
def selectorType : Bytes := "lv_style_selector_t"

def hasSelector (f : Api.FunctionInfo) : Bool :=
  2 ≤ f.params.length && ((f.params.getLast?.map (·.ctype)) == some selectorType)

/-- The type of parameter number `i`. -/
def paramType (f : Api.FunctionInfo) (i : Nat) : Bytes := ((f.params[i]?).map (·.ctype)).getD []

end UiCodegen.Transpile
