import UiCodegen.Proofs.FormatRules

/-!
# What formatting changes

Formatting a value ends, whatever the value, its type and the bindings around it are.  On the way it
defines static objects, reports references that are left to the running program, and remembers the
answers of lookups.  It neither creates nor registers entities, defines no components and writes no
statements other than comments.

`Run.Moves R` says both at once of any steps: they have an outcome in every state, and they stay
inside `R`.
-/

namespace UiCodegen.Transpile

variable (cfg : Settings)

namespace Run

variable {α β : Type} {R S : State → State → Prop}

/-- The steps end in every state, and what they leave is related to it. -/
def Moves (R : State → State → Prop) (x : Run α) : Prop :=
  ∀ st, ∃ r st', x.outcome st = some (r, st') ∧ R st st'

lemma Moves.mono {x : Run α} (hx : x.Moves R) (h : ∀ st st', R st st' → S st st') : x.Moves S := by
  intro st
  obtain ⟨r, st', hr, hR⟩ := hx st
  exact ⟨r, st', hr, h st st' hR⟩

lemma Moves.of_outcome {x : Run α} (hx : x.Moves R) {st st' : State} {r : Except Fault α}
    (hr : x.outcome st = some (r, st')) : R st st' := by
  obtain ⟨r', st'', hr', hR⟩ := hx st
  rw [hr] at hr'
  cases hr'
  exact hR

lemma moves_pure [Std.Refl R] (a : α) : (pure a : Run α).Moves R :=
  fun st => ⟨.ok a, st, rfl, Std.Refl.refl st⟩

lemma moves_throw [Std.Refl R] (e : Fault) : (throw e : Run α).Moves R :=
  fun st => ⟨.error e, st, rfl, Std.Refl.refl st⟩

lemma Decided.moves [Std.Refl R] {x : Run α} (hx : x.Decided) : x.Moves R := by
  obtain ⟨a, rfl⟩ | ⟨fault, rfl⟩ := hx
  · exact moves_pure a
  · exact moves_throw fault

lemma moves_get [Std.Refl R] : (get : Run State).Moves R :=
  fun st => ⟨.ok st, st, rfl, Std.Refl.refl st⟩

lemma moves_modify {f : State → State} (h : ∀ st, R st (f st)) : (modify f : Run Unit).Moves R :=
  fun st => ⟨.ok (), f st, rfl, h st⟩

lemma Moves.bind [IsTrans State R] {x : Run α} {k : α → Run β} (hx : x.Moves R)
    (hk : ∀ a, (k a).Moves R) : (x >>= k).Moves R := by
  intro st
  obtain ⟨r, st₁, hr, hR⟩ := hx st
  cases r with
  | error e => exact ⟨.error e, st₁, by rw [outcome_bind, hr], hR⟩
  | ok a =>
    obtain ⟨r, st₂, hr', hR'⟩ := hk a st₁
    exact ⟨r, st₂, by simp only [outcome_bind, hr, hr'], IsTrans.trans _ _ _ hR hR'⟩

end Run

def Diagnostic.comment (d : Diagnostic) : Statement := .comment ("lvglgen: " ++ d.text)

/-- The second state can result from the first by formatting. -/
structure State.FormattedTo (st st' : State) : Prop where
  fixed : st'.fixed = st.fixed
  definitions : st.definitions <:+ st'.definitions
  warnings : ∃ ds : List Diagnostic,
    st'.diagnostics = ds ++ st.diagnostics ∧ st'.body = ds.map Diagnostic.comment ++ st.body

namespace State.FormattedTo

instance : Std.Refl State.FormattedTo where
  refl _ := ⟨rfl, List.suffix_refl _, [], rfl, rfl⟩

instance : IsTrans State State.FormattedTo where
  trans := by
    rintro st₁ st₂ st₃ ⟨hfixed, hdefinitions, ds, hdiagnostics, hbody⟩
      ⟨hfixed', hdefinitions', ds', hdiagnostics', hbody'⟩
    exact ⟨hfixed'.trans hfixed, hdefinitions.trans hdefinitions', ds' ++
      ds, by simp [hdiagnostics, hdiagnostics'], by simp [hbody, hbody']⟩

lemma body {st st' : State} (h : st.FormattedTo st') :
    ∃ comments : List Bytes, st'.body = comments.map .comment ++ st.body := by
  obtain ⟨ds, -, hbody⟩ := h.warnings
  exact ⟨ds.map fun d => "lvglgen: " ++ d.text, by rw [hbody, List.map_map]; rfl⟩

end State.FormattedTo

open Run State

abbrev Run.Formats {α : Type} (x : Run α) : Prop := x.Moves FormattedTo

/-! ## Formatting -/

lemma formats_warn (p : Problem) (at_ : Pointer) : (warn p at_).Formats :=
  fun st => ⟨.ok (), st.reported p at_, rfl, rfl, List.suffix_refl _, [_], rfl, rfl⟩

lemma formatRules_formats : FormatRules fun _ x => x.Formats where
  pure := moves_pure
  fail p at_ := moves_throw (.problem p at_)
  bind hx hk := hx.bind hk
  look _ hk := moves_get.bind hk
  note hf := moves_modify fun st =>
    ⟨hf.fixed st, hf.definitions st, [], congrArg Prod.fst (hf.lines st), congrArg Prod.snd
      (hf.lines st)⟩
  warn := formats_warn

lemma formats_define (d : Definition) : (define d).Formats := formatRules_formats.define d

lemma formats_uncallable? (function : Api.FunctionInfo) : (uncallable? cfg function).Formats :=
  formatRules_formats.uncallable? cfg function

lemma formats_format (p : Place) (v : Value) (ctype : Bytes) : (format cfg p v ctype).Formats :=
  formatRules_formats.format cfg p v ctype

lemma formats_formatItems (p : Place) (i : Nat) (items : List Value)
    (typeOf : Nat → Bytes) : (formatItems cfg p i items typeOf).Formats :=
  formatRules_formats.formatItems cfg p i items typeOf

lemma formats_formatFields (p : Place) (ctype : Bytes) (record : Api.StructRecord)
    (fields : List (Bytes × Value)) : (formatFields cfg p ctype record fields).Formats :=
  formatRules_formats.formatFields cfg p ctype record fields

lemma formats_formatCall (p : Place) (function : Bytes) (args : List Value) :
    (formatCall cfg p function args).Formats :=
  formatRules_formats.formatCall cfg p function args

end UiCodegen.Transpile
