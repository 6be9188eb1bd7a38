import UiCodegen.Proofs.Declarations
import UiCodegen.Proofs.Traces

/-!
# Which functions are accepted

Transpiling asks whether a function can be used when a document calls it, and remembers the answer;
the interpreter selects its functions beforehand.  Both ask one index, which remembers the sizes of
types that it was asked for, so either may find it in a state that other questions have left.  No
answer depends on such a state: what is remembered is what would be found out again
(`State.Truthful`).  Hence both accept the same functions.
-/

namespace UiCodegen

namespace Api.Index

variable {ix : Index}

/-- What a question does to the sizes that an index remembers. -/
inductive Query (ix : Index) (s : Sizes) : Sizes → Prop
  | size (ctype : Bytes) : Query ix s ((ix.sizeOf ctype).run s).2
  | small (ctype : Bytes) : Query ix s ((ix.isSmallStruct ctype).run s).2
  | representable (f : FunctionInfo) : Query ix s ((ix.unrepresentable? f).run s).2
  | select (filter : Filter) : Query ix s ((ix.select filter).run s).2

/-- The sizes that an index can remember: none at first, and then what any sequence of questions
leaves. -/
def CanRemember (ix : Index) : Sizes → Prop := Relation.ReflTransGen ix.Query []

lemma Query.honest {s s' : Sizes} (h : ix.Query s s') (hs : s.Honest ix []) : s'.Honest ix [] := by
  cases h with
  | size ctype => exact (historyFree_sizeOf ctype s hs).2
  | small ctype => exact (historyFree_isSmallStruct ctype s hs).2
  | representable f => exact (historyFree_unrepresentable? f s hs).2
  | select filter => exact (select_honest hs).2.2

lemma CanRemember.honest {s : Sizes} (h : ix.CanRemember s) : s.Honest ix [] := by
  induction h with
  | refl => exact honest_nil ix
  | tail _ hquery ih => exact hquery.honest ih

lemma filtered_selectFrom (filter : Filter) (functions : List FunctionInfo) (selection : Selection)
    (s : Sizes) : ((ix.selectFrom filter selection functions).run s).1.filtered =
      selection.filtered + functions.countP fun f => !filter.allows f.name := by
  induction functions generalizing selection s with
  | nil => rfl
  | cons f rest ih =>
    by_cases hallows : filter.allows f.name
    · rw [selectFrom, if_neg (by simpa using hallows), run_query_bind]
      split
      · simpa [hallows] using ih _ _
      · simpa [hallows] using ih _ _
    · rw [selectFrom, if_pos (by simpa using hallows), ih]
      simp [hallows]
      omega

end Api.Index

namespace Transpile

open Api (answer HistoryFree)

variable {cfg : Settings} {st st' : State}

/-! ## Answers -/

/-- Why a function cannot be used, if it cannot, as it is found out when nothing is remembered at
all. -/
def verdictOf (cfg : Settings) (f : Api.FunctionInfo) : Option Uncallable := answer (verdict cfg f)

lemma historyFree_verdict (cfg : Settings) (f : Api.FunctionInfo) :
    HistoryFree cfg.index (verdict cfg f) := by
  unfold verdict
  split
  · exact (Api.Index.historyFree_unrepresentable? f).bind fun _ => Api.historyFree_pure _ _
  · exact Api.historyFree_pure _ _

/-- What is remembered is what would be found out again. -/
structure State.Truthful (cfg : Settings) (st : State) : Prop where
  sizes : st.sizes.Honest cfg.index []
  callable : ∀ {f : Api.FunctionInfo} {why : Option Uncallable},
    cfg.index.function? f.name = some f →
    st.callable.lookup f.name = some why → why = verdictOf cfg f

/-- The answer about a function of the API does not depend on what is remembered. -/
lemma State.Truthful.outcome_uncallable? (hst : st.Truthful cfg) {f : Api.FunctionInfo}
    (hf : cfg.index.function? f.name = some f) :
    ∃ st', (uncallable? cfg f).outcome st = some (.ok (verdictOf cfg f), st') := by
  rw [Transpile.outcome_uncallable?]
  cases hlookup : st.callable.lookup f.name with
  | some why => exact ⟨st, by rw [hst.callable hf hlookup]⟩
  | none => exact ⟨_, by rw [(historyFree_verdict cfg f st.sizes hst.sizes).1]; rfl⟩

lemma Effect.truthful (h : Effect cfg st st') (hst : st.Truthful cfg) : st'.Truthful cfg := by
  cases h with
  | remember h log =>
    cases h with
    | nothing => exact ⟨hst.sizes, hst.callable⟩
    | @answer f hf =>
      obtain ⟨hverdict, hhonest⟩ := historyFree_verdict cfg f st.sizes hst.sizes
      refine ⟨hhonest, fun {g why} hg hwhy => ?_⟩
      rw [List.lookup_cons] at hwhy
      split at hwhy
      · rename_i hname
        rw [eq_of_beq hname, hf] at hg
        cases hg
        cases hwhy
        exact hverdict
      · exact hst.callable hg hwhy
  | report | string | array | lookup | style | widget | call | grid | keep | register | component =>
    exact ⟨hst.sizes, hst.callable⟩

lemma History.truthful (h : History cfg st st') (hst : st.Truthful cfg) : st'.Truthful cfg := by
  induction h with
  | refl => exact hst
  | tail _ heffect ih => exact heffect.truthful ih

/-! ## Generators in use -/

/-- The states of a generator in use.  It begins with an index that may have been asked before; then
others ask the index, documents are processed, and at any time a run may be under way. -/
inductive InUse (cfg : Settings) : State → Prop
  | start {sizes : Api.Sizes} (h : cfg.index.CanRemember sizes) : InUse cfg { sizes }
  | query {st : State} (h : InUse cfg st) {sizes : Api.Sizes}
      (hquery : cfg.index.Query st.sizes sizes) : InUse cfg { st with sizes }
  | run {st : State} (h : InUse cfg st) (doc : Value) {r : Except Fault Unit} {st' : State}
      (hrun : (run cfg doc).outcome st = some (r, st')) : InUse cfg st'
  | during {st st' : State} (h : InUse cfg st) (heffect : Effect cfg st st') : InUse cfg st'

lemma State.Sound.query (hst : st.Sound cfg) (sizes : Api.Sizes) :
    State.Sound cfg { st with sizes } := by
  have hextends : st.Extends { st with sizes } := .of_eq rfl rfl rfl
  exact ⟨fun entry hentry =>
    ⟨(hst.registry entry hentry).1.mono hextends, (hst.registry entry hentry).2⟩,
    hst.strings, hst.lookup⟩

lemma InUse.sound_truthful (h : InUse cfg st) : st.Sound cfg ∧ st.Truthful cfg := by
  induction h with
  | start h => exact ⟨sound_start cfg _, h.honest, fun _ hwhy => by cases hwhy⟩
  | query _ hquery ih => exact ⟨ih.1.query _, hquery.honest ih.2.sizes, ih.2.callable⟩
  | run _ doc hrun ih =>
    have hhistory := (traces_run ih.1 doc _ _ hrun).1
    exact ⟨hhistory.sound ih.1, hhistory.truthful ih.2⟩
  | during _ heffect ih => exact ⟨heffect.sound ih.1, heffect.truthful ih.2⟩

lemma Effect.canRemember (h : Effect cfg st st') (hst : cfg.index.CanRemember st.sizes) :
    cfg.index.CanRemember st'.sizes := by
  cases h with
  | remember h log =>
    cases h with
    | nothing => exact hst
    | @answer f hf =>
      rw [verdict]
      split
      · exact hst.tail (.representable f)
      · exact hst
  | report | string | array | lookup | style | widget | call | grid | keep | register | component =>
      exact hst

lemma InUse.canRemember (h : InUse cfg st) : cfg.index.CanRemember st.sizes := by
  have hhistory : ∀ {st st' : State}, History cfg st st' → cfg.index.CanRemember st.sizes →
      cfg.index.CanRemember st'.sizes := by
    intro st st' h hst
    induction h with
    | refl => exact hst
    | tail _ heffect ih => exact heffect.canRemember ih
  induction h with
  | start h => exact h
  | query _ hquery ih => exact ih.tail hquery
  | run h doc hrun ih => exact hhistory (traces_run h.sound_truthful.1 doc _ _ hrun).1 ih
  | during _ heffect ih => exact heffect.canRemember ih

/-! ## Acceptance -/

/-- The three parts of an API under a filter. -/
inductive Part where
  | included | skipped | filtered
  deriving DecidableEq

def Part.ofAnswer : Option Uncallable → Part
  | none => included
  | some (.unrepresentable _) => skipped
  | some (.filtered _) => filtered

/-- A selection divides functions, in their order, into those parts that `part` says. -/
structure Divides (part : Api.FunctionInfo → Part) (functions : List Api.FunctionInfo)
    (s : Api.Selection) : Prop where
  included : s.included = functions.filter (part · = .included)
  skipped : s.skipped.map Prod.fst = functions.filter (part · = .skipped)
  filtered : s.filtered = (functions.filter (part · = .filtered)).length

lemma ofAnswer_verdictOf (cfg : Settings) (f : Api.FunctionInfo) : Part.ofAnswer (verdictOf cfg f) =
      if cfg.filter.allows f.name then
        if cfg.index.isRepresentable f then .included else .skipped
      else .filtered := by
  unfold verdictOf verdict
  split
  · have hanswer : answer (do
        let u ← cfg.index.unrepresentable? f
        pure (u.map Uncallable.unrepresentable)) = (answer (cfg.index.unrepresentable? f)).map
          .unrepresentable := rfl
    rw [hanswer, Api.Index.isRepresentable]
    cases answer (cfg.index.unrepresentable? f) <;> rfl
  · rfl

lemma verdictOf_eq_none_iff {f : Api.FunctionInfo} :
    verdictOf cfg f = none ↔ Part.ofAnswer (verdictOf cfg f) = .included := by
  match verdictOf cfg f with
  | none => simp [Part.ofAnswer]
  | some (.unrepresentable _) => simp [Part.ofAnswer]
  | some (.filtered _) => simp [Part.ofAnswer]

def selected (cfg : Settings) (sizes : Api.Sizes) : Api.Selection :=
  ((cfg.index.select cfg.filter).run sizes).1

lemma divides_selected {sizes : Api.Sizes} (h : sizes.Honest cfg.index []) :
    Divides (fun f => .ofAnswer (verdictOf cfg f)) cfg.index.functions (selected cfg sizes) := by
  have hparts : ∀ f part, Part.ofAnswer (verdictOf cfg f) = part →
      (cfg.filter.allows f.name && cfg.index.isRepresentable f) = decide (part = .included) ∧
      (cfg.filter.allows f.name && !cfg.index.isRepresentable f) = decide (part = .skipped) ∧
      (!cfg.filter.allows f.name) = decide (part = .filtered) := by
    rintro f part rfl
    rw [ofAnswer_verdictOf]
    cases cfg.filter.allows f.name <;> cases cfg.index.isRepresentable f <;> exact ⟨rfl, rfl, rfl⟩
  obtain ⟨hincluded, hskipped, -⟩ := @Api.Index.select_honest _ _ cfg.filter h
  refine ⟨hincluded.trans ?_, hskipped.trans ?_, ?_⟩
  · exact List.filter_congr fun f _ => (hparts f _ rfl).1
  · exact List.filter_congr fun f _ => (hparts f _ rfl).2.1
  · rw [selected, Api.Index.select, Api.Index.filtered_selectFrom, Nat.zero_add,
      List.countP_eq_length_filter]
    exact congrArg List.length (List.filter_congr fun f _ => (hparts f _ rfl).2.2)

/-- A function of the API is selected if it is among the functions included, where names differ. -/
lemma Divides.has_iff {part : Api.FunctionInfo → Part} {functions : List Api.FunctionInfo}
    {s : Api.Selection}
    (h : Divides part functions s) (hnames : (functions.map (·.name)).Nodup) {f : Api.FunctionInfo}
    (hf : f ∈ functions) : s.has f.name = true ↔ part f = .included := by
  rw [Api.Selection.has, h.included, List.any_eq_true]
  constructor
  · rintro ⟨g, hg, hname⟩
    obtain ⟨hg, hpart⟩ := List.mem_filter.1 hg
    rw [← List.inj_on_of_nodup_map hnames hg hf (eq_of_beq hname)]
    simpa using hpart
  · intro hpart
    exact ⟨f, List.mem_filter.2 ⟨hf, by simpa using hpart⟩, by simp⟩

/-- **Both modes accept the same functions.**  Let no name of a function be declared twice.  Then
the functions of the API are those that are declared, in their order, and each is found by its name.
Whatever a generator and its index have been through, documents can use a function exactly if the
interpreter selects it, whatever the index was asked before that; and the answers divide the
functions, in their order, into those that the interpreter includes, those that it skips and those
that its filter rejects.  What the generator leaves in the index is again something that questions
leave there. -/
theorem modes_accept_alike {d : Api.Description}
    (hnames : ((d.functions.map (·.name)).filter (!·.isEmpty)).Nodup)
    {cfg : Settings} (hindex : cfg.index = .ofDescription d) {st : State} (hst : InUse cfg st)
    {sizes : Api.Sizes}
    (hsizes : cfg.index.CanRemember sizes) :
    cfg.index.functions.map (·.name) = (d.functions.map (·.name)).filter (!·.isEmpty) ∧
      (∀ f ∈ cfg.index.functions, cfg.index.function? f.name = some f ∧
        (∃ st', (uncallable? cfg f).outcome st = some (.ok (verdictOf cfg f), st')) ∧
        (verdictOf cfg f = none ↔ (selected cfg sizes).has f.name = true)) ∧
      Divides (fun f => .ofAnswer (verdictOf cfg f)) cfg.index.functions (selected cfg sizes) ∧
      cfg.index.CanRemember st.sizes := by
  have hdivides : Divides _ cfg.index.functions (selected cfg sizes) :=
    divides_selected hsizes.honest
  obtain ⟨hfunctions, hfound⟩ := Api.functions_of_nodup hnames
  rw [← hindex] at hfunctions hfound
  have hdeclared : cfg.index.functions.map (·.name) = (d.functions.map (·.name)).filter
      (!·.isEmpty) := by
    rw [hfunctions, hindex, Api.names_declaredFunctions]
  refine ⟨hdeclared, fun f hf => ⟨hfound f hf, ?_, ?_⟩, hdivides, hst.canRemember⟩
  · exact hst.sound_truthful.2.outcome_uncallable? (hfound f hf)
  · rw [verdictOf_eq_none_iff, hdivides.has_iff (hdeclared ▸ hnames) hf]

def ringNode : Api.TypeNode := .mk .struct "ring_t" [] none [] none

/-- An API with a record that contains itself, a function that takes such a record and two that take
nothing. -/
def ringApi : Api.Description where
  structs := [{ name := "ring_t", fields := [{ name := "inner", type := some ringNode }] }]
  functions := [{ name := "lv_roll", args := [some ringNode] }, { name := "lv_init" },
    { name := "lv_deinit" }]

/-- A filter that rejects names with the letter `d`. -/
def noLetterD : Api.Filter := { unwanted := [.char { items := [.range 100 100] }] }

def ringSettings : Settings :=
  { index := .ofDescription ringApi, enums := .build [], filter := noLetterD }

def ringSizes : Api.Sizes := ((ringSettings.index.sizeOf "ring_t").run []).2

theorem ringApi_accepted_alike :
    (∀ f ∈ ringSettings.index.functions,
      (∃ st', (uncallable? ringSettings f).outcome { sizes := ringSizes } =
        some (.ok (verdictOf ringSettings f), st')) ∧
      (verdictOf ringSettings f = none ↔ (selected ringSettings []).has f.name = true)) ∧
    ringSettings.index.functions.map (fun f => Part.ofAnswer (verdictOf ringSettings f)) =
      [.skipped, .included, .filtered] := by
  have hnames : ((ringApi.functions.map (·.name)).filter (!·.isEmpty)).Nodup := by decide +kernel
  have hst : InUse ringSettings { sizes := ringSizes } := .query (.start .refl) (.size "ring_t")
  obtain ⟨-, haccepted, -⟩ := modes_accept_alike hnames rfl hst .refl
  exact ⟨fun f hf => (haccepted f hf).2, by decide +kernel⟩

end Transpile

end UiCodegen
