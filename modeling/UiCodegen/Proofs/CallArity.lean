import UiCodegen.Proofs.CItems
import UiCodegen.Proofs.NodeSteps
import UiCodegen.Proofs.Traces

/-!
# Calls have the declared arity

Every call in the generated code, however deep it is nested, passes as many arguments as its
function has parameters in the index.  The one exception is the call that sets the templates of a
grid, which is written without a look at the index.  Which arguments there are is decided by plans
(`UiCodegen.Proofs.Arguments`), and the types of parameters are looked up by number when the
arguments are formatted.  Both are put together here.

An argument is an expression of the code.  Some expressions are texts that the document gives, such
as the use of a definition, and they are written as they are.  A compiler therefore finds the
arguments of a call if and only if each of them is one argument in C (`readsFit_iff`), and for that
it is enough that each text which is written as it is stands for itself (`isArgument_render`).
-/

namespace UiCodegen.Transpile

open Run State

/-! ## The calls of a session -/

/-- Every call in the code passes as many arguments as its function has parameters. -/
structure State.CallsFit (cfg : Settings) (st : State) : Prop where
  body : ∀ s ∈ st.body, (∀ x ∈ s.within, x.Fits cfg) ∨ ∃ e g, s = gridCall e g
  definitions : ∀ d ∈ st.definitions, ∀ x ∈ d.within, x.Fits cfg

section

variable {cfg : Settings} {st st' : State}

lemma Effect.callsFit (h : Effect cfg st st') (hst : st.CallsFit cfg) : st'.CallsFit cfg := by
  constructor
  · obtain hbody | ⟨s, hbody, -, hs⟩ := h.body_cases
    · exact hbody ▸ hst.body
    · rw [hbody]
      exact List.forall_mem_cons.2 ⟨hs, hst.body⟩
  · obtain hdefinitions | ⟨d, hdefinitions, hd⟩ := h.definitions_cases
    · exact hdefinitions ▸ hst.definitions
    · rw [hdefinitions]
      exact List.forall_mem_cons.2 ⟨fun x hx => (hd x hx).2, hst.definitions⟩

lemma Session.callsFit (h : Session cfg st) : st.CallsFit cfg :=
  h.invariant (fun _ => ⟨by simp, by simp⟩) fun _ _ => Effect.callsFit

/-! ## One attribute at a time -/

/-- Setting an attribute writes one call of a setter or none, behind comments on references that are
left open. -/
lemma body_applySetter {e : Entity} {key : Bytes} {raw : Value} {f : Frame} {at_ : Pointer}
    {r : Except Fault Unit} (h : (applySetter cfg e key raw f at_).outcome st = some (r, st')) :
    ∃ (comments : List Bytes) (calls : List Statement),
      st'.body = calls ++ (comments.map Statement.comment ++ st.body) ∧
      (calls = [] ∨ ∃ setter args, calls = [.call setter (.entity e :: args)] ∧
        (Expr.call setter (.entity e :: args)).Fits cfg) := by
  cases setterEnds_applySetter h with
  | failed fault hformatted | skipped hformatted =>
    obtain ⟨comments, hbody⟩ := hformatted.body
    exact ⟨comments, [], hbody, .inl rfl⟩
  | called hformatted _ hfits =>
    obtain ⟨comments, hbody⟩ := hformatted.body
    exact ⟨comments, _, congrArg (List.cons _) hbody, .inr ⟨_, _, rfl, hfits⟩⟩

end

/-! ## Calls as a compiler reads them -/

namespace Expr

/-- A compiler finds the arguments of a call as they were put together, and as many as the function
takes. -/
def ReadsFit (cfg : Settings) : Expr → Prop
  | .call function args => ∃ f, cfg.index.function? function = some f ∧ ∀ rest, ∃ found,
      C.arguments? (C.prepared (Bytes.join ", " (renderAll args) ++ 41 :: rest)) =
        some (found, C.prepared rest) ∧
      found = C.spaced ((renderAll args).map C.prepared) ∧ found.length = f.arity
  | .text _ | .static _ | .entity _ | .registered .. | .compound .. => True

/-- Each argument of a call is one argument in C. -/
def ArgumentsSingle : Expr → Prop
  | .call _ args => ∀ a ∈ args, C.IsArgument a.render
  | .text _ | .static _ | .entity _ | .registered .. | .compound .. => True

/-- The texts that are written as they are into the outermost part of an expression stand for
themselves: values and names are one argument each, and behind the label of a part its value begins.
-/
def TextsSingle : Expr → Prop
  | .text s | .static s => C.IsArgument s
  | .entity e => C.IsArgument e.expr
  | .call function _ => C.Single function
  | .registered ctype _ _ => C.IsArgument ctype
  | .compound ctype parts => C.IsArgument ctype ∧ ∀ part ∈ parts, ∃ ink, C.EndsPlain part.1 ink

variable {cfg : Settings} {x e : Expr} {args : List Expr}

lemma renderAll_eq_map (args : List Expr) : renderAll args = args.map render := by
  induction args with
  | nil => rfl
  | cons e rest ih => rw [renderAll, ih, List.map_cons]

/-- A compiler finds the arguments of a call if and only if each of them is one argument in C. -/
lemma readsFit_iff (h : x.Fits cfg) : x.ReadsFit cfg ↔ x.ArgumentsSingle := by
  cases x with
  | call function args =>
    obtain ⟨f, hf, hlength⟩ := h
    have hread := C.arguments?_join_iff (renderAll args)
    rw [renderAll_eq_map, List.forall_mem_map, ← renderAll_eq_map] at hread
    rw [ArgumentsSingle, ← hread]
    constructor
    · rintro ⟨_, _, hfound⟩ rest
      obtain ⟨found, hfound, rfl, -⟩ := hfound rest
      exact hfound
    · intro hfound
      refine ⟨f, hf, fun rest => ⟨_, hfound rest, rfl, ?_⟩⟩
      rw [C.length_spaced, List.length_map, renderAll_eq_map, List.length_map, hlength]
  | text | static | entity | registered | compound => exact Iff.rfl

/-- Arguments in round brackets. -/
lemma endsPlain_call {front : Bytes} (hfront : C.Single front) {texts : List Bytes}
    (htexts : ∀ t ∈ texts, C.IsArgument t) :
    C.EndsPlain (front ++ "(" ++ Bytes.join ", " texts ++ ")") true := by
  have hbrackets := C.endsPlain_bracketed hfront (rfl : C.closing? 40 = some 41) htexts
  have hopen : Bytes.ofString "(" = [40] := by decide
  have hclose : Bytes.ofString ")" = [41] := by decide
  simpa [hopen, hclose] using hbrackets

/-- A type in brackets. -/
lemma endsPlain_cast {ctype : Bytes} (h : C.IsArgument ctype) :
    C.EndsPlain ("(" ++ ctype ++ ")") true := by
  have hbrackets := endsPlain_call (by decide : C.Single []) (List.forall_mem_singleton.2 h)
  simpa [Bytes.join] using hbrackets

lemma isArgument_registered {ctype : Bytes} (h : C.IsArgument ctype) (name tag : Bytes) :
    C.IsArgument (Expr.registered ctype name tag).render := by
  have hfunction : C.IsArgument "lvgl_json_get_registered_ptr" := by decide +kernel
  have hfront : C.IsArgument ("(" ++ ctype ++ ")" ++ "lvgl_json_get_registered_ptr") :=
    (endsPlain_cast h).ink?_append hfunction
  have hargs : ∀ t ∈ [C.quote name, C.quote tag], C.IsArgument t := by
    simp [C.isArgument_quote]
  have hcall := (endsPlain_call hfront.single hargs).isArgument
  have htext : Bytes.ofString ")lvgl_json_get_registered_ptr(" =
      Bytes.ofString ")" ++
        ("lvgl_json_get_registered_ptr" ++ Bytes.ofString "(") := by decide +kernel
  simpa [render, htext, Bytes.join] using hcall

lemma isArgument_compound {ctype : Bytes} (h : C.IsArgument ctype) {parts : List (Bytes × Expr)}
    (hparts : ∀ t ∈ renderParts parts, C.IsArgument t) :
    C.IsArgument (Expr.compound ctype parts).render := by
  have hbrackets :=
    C.endsPlain_bracketed (endsPlain_cast h).single (rfl : C.closing? 123 = some 125) hparts
  have hopen : Bytes.ofString ")\x7b" = Bytes.ofString ")" ++ [123] := by decide
  have hclose : Bytes.ofString "\x7d" = [125] := by decide
  simpa [render, hopen, hclose] using hbrackets.isArgument

mutual

/-- An expression is one argument if the texts in it stand for themselves. -/
lemma isArgument_render : ∀ e : Expr, (∀ x ∈ e.within, x.TextsSingle) → C.IsArgument e.render
  | .text s, h => h (.text s) (List.mem_singleton_self _)
  | .static name, h => h (.static name) (List.mem_singleton_self _)
  | .entity e, h => h (.entity e) (List.mem_singleton_self _)
  | .registered ctype name tag, h =>
    isArgument_registered (h (.registered ctype name tag) (List.mem_singleton_self _)) name tag
  | .call function args, h => by
    rw [within, List.forall_mem_cons] at h
    exact (endsPlain_call h.1 (isArgument_renderAll args h.2)).isArgument
  | .compound ctype parts, h => by
    rw [within, List.forall_mem_cons] at h
    exact isArgument_compound h.1.1 (isArgument_renderParts parts h.1.2 h.2)

lemma isArgument_renderAll : ∀ args : List Expr, (∀ x ∈ withinAll args, x.TextsSingle) →
    ∀ t ∈ renderAll args, C.IsArgument t
  | [], _ => nofun
  | e :: rest, h => by
    rw [withinAll, List.forall_mem_append] at h
    exact List.forall_mem_cons.2 ⟨isArgument_render e h.1, isArgument_renderAll rest h.2⟩

lemma isArgument_renderParts :
    ∀ parts : List (Bytes × Expr), (∀ part ∈ parts, ∃ ink, C.EndsPlain part.1 ink) →
    (∀ x ∈ withinParts parts, x.TextsSingle) → ∀ t ∈ renderParts parts, C.IsArgument t
  | [], _, _ => nofun
  | (label, e) :: rest, hlabels, h => by
    rw [withinParts, List.forall_mem_append] at h
    obtain ⟨⟨ink, hlabel⟩, hlabels⟩ := List.forall_mem_cons.1 hlabels
    have hpart : C.ink? (C.prepared (label ++ e.render)) = some (ink || true) :=
      hlabel.ink?_append (isArgument_render e h.1)
    rw [Bool.or_true] at hpart
    exact List.forall_mem_cons.2 ⟨hpart, isArgument_renderParts rest hlabels h.2⟩

end

lemma argumentsSingle_of_textsSingle (h : ∀ y ∈ x.within, y.TextsSingle) : x.ArgumentsSingle := by
  cases x with
  | call function args =>
    rw [within, List.forall_mem_cons] at h
    have hargs := isArgument_renderAll args h.2
    rwa [renderAll_eq_map, List.forall_mem_map] at hargs
  | text | static | entity | registered | compound => trivial

end Expr

/-! ## The main statement -/

/-- No lookup of the type of a parameter misses: with lookups that come to nothing if there is no
such parameter, setters are found and fitted, their arguments formatted and nested calls formatted
as before. -/
structure ParametersFound (cfg : Settings) : Prop where
  usable : ∀ names, checkedUsable cfg names = usable cfg names
  setterPlan : ∀ f v, checkedSetterPlan cfg f v = some (setterPlan? cfg f v)
  setterArgs : ∀ p f v plan, setterPlan? cfg f v = some plan →
    checkedSetterArgs cfg p f plan v = setterArgs cfg p f plan v
  nestedCall : ∀ p function args, checkedCall cfg p function args = formatCall cfg p function args

/-- **Every call has the declared arity.**  In the code of a session, at any depth of nesting, a
call passes as many arguments as its function has parameters; only the call that sets the templates
of a grid is written without a look at the index.  In any state, setting an attribute writes nothing
but such calls, a nested call is one, and no lookup of a parameter on the way is out of range.  A
compiler finds these arguments in the text of such a call if and only if each of them is one
argument in C, as it is if the texts in it stand for themselves. -/
theorem calls_have_declared_arity (cfg : Settings) :
    (∀ st, Session cfg st →
      (∀ s ∈ st.body, (∀ x ∈ s.within, x.Fits cfg) ∨ ∃ e g, s = gridCall e g) ∧
      ∀ d ∈ st.definitions, ∀ x ∈ d.within, x.Fits cfg) ∧
    (∀ e key raw f at_ st r st', (applySetter cfg e key raw f at_).outcome st = some (r, st') →
      ∃ (comments : List Bytes) (calls : List Statement),
        st'.body = calls ++ (comments.map Statement.comment ++ st.body) ∧
        (calls = [] ∨ ∃ setter args, calls = [.call setter (.entity e :: args)] ∧
          (Expr.call setter (.entity e :: args)).Fits cfg)) ∧
    (∀ p function args st call result st',
      (formatCall cfg p function args).outcome st = some (.ok (call, result), st') →
        (∃ values, call = .call function values) ∧ call.Fits cfg) ∧
    ParametersFound cfg ∧
    (∀ x : Expr, x.Fits cfg → (x.ReadsFit cfg ↔ x.ArgumentsSingle)) ∧
    ∀ x : Expr, (∀ y ∈ x.within, y.TextsSingle) → x.ArgumentsSingle := by
  refine ⟨fun st hst => ?_, fun e key raw f at_ st r st' h => body_applySetter h,
    fun p function args st call result st' h => formatCall_ok h, ?_,
    fun x => Expr.readsFit_iff, fun x => Expr.argumentsSingle_of_textsSingle⟩
  · have hfit := hst.callsFit
    exact ⟨hfit.body, hfit.definitions⟩
  · exact ⟨checkedUsable_eq, fun f v => checkedSetterPlan_eq v, fun p f v plan h =>
      checkedSetterArgs_eq p h,
      checkedCall_eq⟩

/-- An API with a setter of two values and a function that takes a target only. -/
def placeSettings : Settings :=
  settingsOf [declare "lv_obj_create" "lv_obj_t *" ["lv_obj_t *"],
    declare "lv_obj_set_pos" "void" ["lv_obj_t *", "int32_t", "int32_t"],
    declare "lv_obj_get_x" "int32_t" ["lv_obj_t *"]]

/-- A box whose place is given by an array with a nested call in it; the call leaves out its target.
-/
def placedBox : Value := .obj [("pos", .arr [.obj [("call", .str "lv_obj_get_x")], .num "3"])]

def placedBoxEntity : Entity where
  cname := "obj_1"
  ctype := "lv_obj_t *"
  isPointer := true
  nodeType := "obj"
  setterPrefix := "lv_obj"

set_option maxRecDepth 100000 in
theorem placedBox_calls_have_declared_arity :
    ∃ st, Session placeSettings st ∧
      st.body = [.call "lv_obj_set_pos" [.entity placedBoxEntity,
          .call "lv_obj_get_x" [.entity placedBoxEntity], .text "3"],
        .create "lv_obj_t *" "obj_1" "lv_obj_create" (rootFrame placeSettings).parent] ∧
      ∀ s ∈ st.body, (∀ x ∈ s.within, x.Fits placeSettings) ∨ ∃ e g, s = gridCall e g := by
  have hrun : ((run placeSettings placedBox).outcome {}).map (fun r => r.2.body) =
      some [.call "lv_obj_set_pos" [.entity placedBoxEntity,
          .call "lv_obj_get_x" [.entity placedBoxEntity], .text "3"],
        .create "lv_obj_t *" "obj_1" "lv_obj_create" (rootFrame placeSettings).parent] := by
    cbv
  obtain ⟨⟨r, st⟩, houtcome, hbody⟩ := Option.map_eq_some_iff.1 hrun
  have hsession : Session placeSettings st := (Session.start []).run placedBox houtcome
  exact ⟨st, hsession, hbody, ((calls_have_declared_arity placeSettings).1 st hsession).1⟩

/-- An API with a setter of one value. -/
def shiftSettings : Settings :=
  settingsOf [declare "lv_obj_create" "lv_obj_t *" ["lv_obj_t *"],
    declare "lv_obj_set_x" "void" ["lv_obj_t *", "int32_t"]]

/-- A box whose place is given by the uses of two definitions. -/
def shiftedBox : Value := .obj [("x", .str "FOO(1), BAR(2)")]

set_option maxRecDepth 100000 in
/-- A text of the document may be more than one argument, and the call then passes too many. -/
theorem shiftedBox_call_exceeds_arity :
    ∃ st args, Session shiftSettings st ∧ .call "lv_obj_set_x" args ∈ st.body ∧
      (shiftSettings.index.function? "lv_obj_set_x").map Api.FunctionInfo.arity = some 2 ∧
      C.arguments? (C.prepared (Bytes.join ", " (Expr.renderAll args) ++ 41 :: [59])) =
        some ([Bytes.ofString "obj_1", " FOO(1)", " BAR(2)"], [59]) := by
  have hrun : ((run shiftSettings shiftedBox).outcome {}).map (fun r => r.2.body.head?) =
      some (some (.call "lv_obj_set_x" [.entity placedBoxEntity, .text "FOO(1), BAR(2)"])) := by
    cbv
  obtain ⟨⟨r, st⟩, houtcome, hbody⟩ := Option.map_eq_some_iff.1 hrun
  have hsession : Session shiftSettings st := (Session.start []).run shiftedBox houtcome
  exact ⟨st, _, hsession, List.mem_of_head? hbody, by rfl, by decide +kernel⟩

end UiCodegen.Transpile
