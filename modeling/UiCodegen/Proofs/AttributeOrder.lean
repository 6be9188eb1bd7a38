import UiCodegen.Proofs.NodeSteps
import UiCodegen.Proofs.Traversal

/-!
# One attribute, one effect

Setting an attribute formats values, which may define static objects and report references that are
left open, and then writes one call of a setter, or none.  Nothing else changes, and if anything
fails, no call is written (`OneEffect`). The attributes of a node are set one after the other, in
the order of the document, and code is only added to.  So what is written for a node is a part for
each of its pairs, in their order, and in the part of an attribute there is at most one call
(`SetInOrder`, `attributes_have_one_effect`).
-/

namespace UiCodegen.Transpile

open Run State

/-! ## Code is only added to -/

/-- The code of the second state goes on from the code of the first. -/
structure State.CodeGrows (st st' : State) : Prop where
  body : st.body <:+ st'.body
  definitions : st.definitions <:+ st'.definitions

instance : IsPreorder State CodeGrows where
  refl _ := ⟨List.suffix_refl _, List.suffix_refl _⟩
  trans _ _ _ h h' := ⟨h.body.trans h'.body, h.definitions.trans h'.definitions⟩

namespace Run

variable {α β : Type} {x : Run α}

/-- Every state that the steps leave goes on from the one in which they began. -/
def Grows (x : Run α) : Prop := x.Ensures fun st _ st' => st.CodeGrows st'

lemma Moves.grows (hx : x.Settles) : x.Grows :=
  fun _ _ _ hr => ⟨(hx.of_outcome hr).body, (hx.of_outcome hr).definitions⟩

lemma Grows.bind {k : α → Run β} (hx : x.Grows)
    (hk : ∀ a, (∃ st st', x.outcome st = some (.ok a, st')) → (k a).Grows) : (x >>= k).Grows := by
  intro st r st' hr
  obtain ⟨a, st₁, hfirst, hsecond⟩ | ⟨e, hfirst, rfl⟩ := outcome_bind_eq_some.1 hr
  · exact IsTrans.trans _ _ _ (hx _ _ _ hfirst) (hk a ⟨st, st₁, hfirst⟩ _ _ _ hsecond)
  · exact hx _ _ _ hfirst

lemma Grows.recover (hx : x.Grows) (otherwise : α) : (Transpile.recover otherwise x).Grows := by
  intro st r st' hr
  rw [outcome_recover] at hr
  split at hr
  · rename_i p at_ st₁ hproblem
    cases hr
    have hgrows := hx _ _ _ hproblem
    exact ⟨hgrows.body.trans (List.suffix_cons _ _), hgrows.definitions⟩
  · exact hx _ _ _ hr

end Run

lemma grows_defineComponent (node : Fields) (at_ : Pointer) : (defineComponent node at_).Grows := by
  have hdefine : ∀ name root,
      (modify fun st => { st with components := (name, root) :: st.components } :
      Run Unit).Grows := by
    rintro name root st r st' ⟨⟩
    exact ⟨List.suffix_refl _, List.suffix_refl _⟩
  unfold defineComponent
  refine (decided_componentName node _ at_).moves.grows.bind fun name _ =>
    (decided_objectField node _ at_).moves.grows.bind fun root _ => ?_
  cases root with
  | none => exact Moves.grows (moves_throw _)
  | some root =>
    refine (Moves.grows moves_get).bind fun st _ => ?_
    split
    · exact (formats_warn _ _).keeps.settles.grows.bind fun _ _ => hdefine name root
    · exact hdefine name root

section

variable {g : Fields → Frame → Run Unit} (hg : ∀ node f, (g node f).Grows)
include hg

lemma grows_useComponent (node : Fields) (f : Frame) : (useComponent g node f).Grows := by
  have hignored : ∀ keys, (noteIgnored keys f.at_).Settles :=
    fun keys => moves_modify fun _ => ⟨rfl, List.suffix_refl _, List.suffix_refl _⟩
  unfold useComponent
  refine (decided_componentName node _ f.at_).moves.grows.bind fun name _ =>
    (decided_objectField node _ f.at_).moves.grows.bind fun context _ =>
      (Moves.grows moves_get).bind fun st _ => ?_
  split
  · exact Moves.grows (moves_throw _)
  · exact (hignored _).grows.bind fun _ _ => hg _ _

lemma carries_grows (cfg : Settings) :
    Carries cfg g (fun _ => g) (fun _ => True) fun x _ => x.Grows where
  field _ _ := trivial
  item _ _ := trivial
  step hx := hx.settles.grows
  bind hx hk := hx.bind hk
  recover otherwise hx := hx.recover otherwise
  component f _ _ _ _ := grows_defineComponent _ f.at_
  use f _ _ _ _ := grows_useComponent hg _ f

lemma grows_applyAttributes (cfg : Settings) (e : Entity) (pairs : Fields) (f : Frame)
    (grid : Grid) : (applyAttributes cfg g e pairs f grid).Grows :=
  (carries_grows hg cfg).attributes e pairs f grid fun _ _ _ => trivial

lemma grows_processUnder (cfg : Settings) (children : Option Value) (e : Entity) (f inner : Frame) :
    (processUnder cfg g children e f inner).Grows := by
  unfold processUnder
  split
  · exact Moves.grows (moves_pure _)
  · split
    · exact (carries_grows hg cfg).children _ 0 _ fun _ _ => trivial
    · exact (formats_warn _ _).keeps.settles.grows
  · exact Moves.grows (moves_throw _)

end

/-- Instances only add to the code: by induction over the instances inside them. -/
lemma grows_instantiate (cfg : Settings) (node : Fields) (f : Frame) :
    (instantiate cfg node f).Grows := by
  intro st r st' hr
  refine instantiate_induction cfg (motive := fun _ _ st r => st.CodeGrows r.2) ?_ hr
  intro g hg node f st r hr
  have hinner : ∀ node f, (g node f).Grows := fun node f st r st' hr => hg node f st (r, st') hr
  exact (carries_grows hinner cfg).fields node f trivial st r.1 r.2 hr

/-! ## One attribute -/

/-- One call of a function that may set an attribute of an entity, or none. -/
def AtMostOneCall (e : Entity) (key : Bytes) (calls : List Statement) : Prop :=
  calls = [] ∨ ∃ setter ∈ setterNames e key, ∃ args, calls = [.call setter (.entity e :: args)]

/-- What setting an attribute does to a state, and what it comes to. -/
structure OneEffect (e : Entity) (key : Bytes) (st : State) (r : Except Fault Unit) (st' : State) :
    Prop where
  /-- The locals, the registry, the components and the counters stay. -/
  fixed : st'.fixed = st.fixed
  /-- The latest line comes first: behind comments on what was reported there is one call, or none
  if it failed. -/
  written : ∃ (warnings : List Diagnostic) (calls : List Statement),
    st'.diagnostics = warnings ++ st.diagnostics ∧
    st'.body = calls ++ (warnings.map Diagnostic.comment ++ st.body) ∧
    AtMostOneCall e key calls ∧ ∀ fault, r = .error fault → calls = []

section

variable {cfg : Settings} {e : Entity} {key : Bytes} {st st' : State} {r : Except Fault Unit}

lemma SetterEnds.oneEffect (h : SetterEnds cfg e key st r st') : OneEffect e key st r st' := by
  cases h with
  | failed fault hformatted | skipped hformatted =>
    obtain ⟨hfixed, -, ds, hdiagnostics, hbody⟩ := hformatted
    exact ⟨hfixed, ds, [], hdiagnostics, hbody, .inl rfl, fun _ _ => rfl⟩
  | called hformatted hsetter hfits =>
    obtain ⟨hfixed, -, ds, hdiagnostics, hbody⟩ := hformatted
    exact ⟨hfixed, ds, [_], hdiagnostics, congrArg (List.cons _) hbody, .inr ⟨_, hsetter, _, rfl⟩,
      fun _ h => nomatch h⟩

/-- A problem becomes one more comment, behind which there is no call. -/
lemma guarded_applySetter_written {raw : Value} {f : Frame} {at_ : Pointer}
    (h : (guarded (applySetter cfg e key raw f at_)).outcome st = some (r, st')) :
    ∃ (warnings : List Diagnostic) (calls : List Statement),
      st'.body = (warnings.map Diagnostic.comment ++ calls).reverse ++ st.body ∧
      AtMostOneCall e key calls := by
  have hreverse : ∀ {calls}, AtMostOneCall e key calls → calls.reverse = calls := by
    rintro calls (rfl | ⟨setter, -, args, rfl⟩) <;> rfl
  rw [guarded, outcome_recover] at h
  split at h
  · rename_i p at_ st₁ hproblem
    cases h
    obtain ⟨-, ds, calls, -, hbody, -, hnone⟩ := (setterEnds_applySetter hproblem).oneEffect
    obtain rfl := hnone _ rfl
    refine ⟨ds.reverse ++ [⟨at_.display, p.message⟩], [], ?_, .inl rfl⟩
    simp [State.reported, hbody, Diagnostic.comment]
  · obtain ⟨-, ds, calls, -, hbody, hcalls, -⟩ := (setterEnds_applySetter h).oneEffect
    refine ⟨ds.reverse, calls, ?_, hcalls⟩
    rw [hbody, List.reverse_append, hreverse hcalls, ← List.map_reverse, List.reverse_reverse,
      List.append_assoc]

end

/-! ## The pairs of a node -/

def IsAttribute (e : Entity) (key : Bytes) : Prop :=
  key ∉ metaKeys ∧ ¬(e.nodeType = "grid" ∧ (key = "cols" ∨ key = "rows"))

/-- What one pair of a node writes between two states, the first line first. -/
structure Writes (cfg : Settings) (e : Entity) (f : Frame) (pair : Bytes × Value) (st : State)
    (lines : List Statement) (st' : State) : Prop where
  body : st'.body = lines.reverse ++ st.body
  silent : pair.1 ∈ metaKeys → pair.1 ≠ "with" → st' = st
  setter : IsAttribute e pair.1 →
    (guarded (applySetter cfg e pair.1 pair.2 f (f.at_.key pair.1))).outcome st = some
      (.ok (), st') ∧
    ∃ (warnings : List Diagnostic) (calls : List Statement),
      lines = warnings.map Diagnostic.comment ++ calls ∧ AtMostOneCall e pair.1 calls

/-- Pairs write one after the other, each in the state that those in front of it have left. -/
inductive SetInOrder (cfg : Settings) (e : Entity) (f : Frame) :
    Fields → State → List (List Statement) → State → Prop
  | nil {st : State} : SetInOrder cfg e f [] st [] st
  | cons {pair : Bytes × Value} {rest : Fields} {st st₁ st₂ : State} {lines : List Statement}
      {parts : List (List Statement)} (hpair : Writes cfg e f pair st lines st₁)
      (hrest : SetInOrder cfg e f rest st₁ parts st₂) : SetInOrder cfg e f (pair :: rest) st
        (lines :: parts) st₂

lemma SetInOrder.body {cfg : Settings} {e : Entity} {f : Frame} {pairs : Fields} {st st' : State}
    {parts : List (List Statement)} (h : SetInOrder cfg e f pairs st parts st') :
    st'.body = parts.flatten.reverse ++ st.body := by
  induction h with
  | nil => rfl
  | cons hpair _ ih => simp [ih, hpair.body]

section

variable {cfg : Settings} {g : Fields → Frame → Run Unit} {e : Entity} {f : Frame}
  {st st' : State} {grid : Grid}

lemma outcome_guarded_of_recover {x : Run Unit} {grid' : Grid}
    (h : (recover grid (do x; pure grid)).outcome st = some (.ok grid', st')) :
    (guarded x).outcome st = some (.ok (), st') := by
  rw [outcome_recover, outcome_bind] at h
  rw [guarded, outcome_recover]
  match hx : x.outcome st, h with
  | some (.ok (), st₁), h =>
    cases h
    rfl
  | some (.error (.problem p at_), st₁), h =>
    cases h
    rfl

lemma writes_applyAttributes (hg : ∀ node f, (g node f).Grows) {pair : Bytes × Value} {grid' : Grid}
    (h : (applyAttributes cfg g e [pair] f grid).outcome st = some (.ok grid', st')) :
    ∃ lines, Writes cfg e f pair st lines st' := by
  obtain ⟨written, hwritten⟩ := (grows_applyAttributes hg cfg e [pair] f grid _ _ _ h).body
  obtain ⟨key, v⟩ := pair
  rw [applyAttributes_single] at h
  by_cases hkey : IsAttribute e key
  · have hwith : (key == "with") = false := by
      refine beq_eq_false_iff_ne.2 fun hkey' => hkey.1 ?_
      rw [hkey']
      decide
    have hmeta : metaKeys.contains key = false := by simpa using hkey.1
    have hgrid : (e.nodeType == "grid" && (key == "cols" || key == "rows")) = false := by
      simpa using hkey.2
    rw [hwith, hmeta, hgrid] at h
    have hset := outcome_guarded_of_recover h
    obtain ⟨warnings, calls, hbody, hcalls⟩ := guarded_applySetter_written hset
    exact ⟨_, hbody, fun hmem => absurd hmem hkey.1, fun _ => ⟨hset, warnings, calls, rfl, hcalls⟩⟩
  · refine ⟨written.reverse, ?_, fun hmem hwith => ?_, fun hattribute => absurd hattribute hkey⟩
    · rw [List.reverse_reverse, hwritten]
    · rw [beq_eq_false_iff_ne.2 hwith, List.contains_iff_mem.2 hmem] at h
      cases h
      rfl

/-- The induction is over the pairs.  Setting them ends behind the last, or with the first that
fails. -/
lemma setInOrder_applyAttributes (hg : ∀ node f, (g node f).Grows) {pairs : Fields}
    {r : Except Fault Grid}
    (h : (applyAttributes cfg g e pairs f grid).outcome st = some (r, st')) :
    ∃ front rest parts st₁, pairs = front ++ rest ∧ SetInOrder cfg e f front st parts st₁ ∧
      ((rest = [] ∧ st' = st₁ ∧ ∃ grid', r = .ok grid') ∨
        ∃ pair tail grid' fault, rest = pair :: tail ∧ r = .error fault ∧
          (applyAttributes cfg g e [pair] f grid').outcome st₁ = some (.error fault, st')) := by
  induction pairs generalizing st grid with
  | nil =>
    rw [applyAttributes] at h
    cases h
    exact ⟨[], [], [], _, rfl, .nil, .inl ⟨rfl, rfl, _, rfl⟩⟩
  | cons pair rest ih =>
    rw [applyAttributes_cons] at h
    obtain ⟨grid₁, st₁, hpair, h⟩ | ⟨fault, hpair, rfl⟩ := outcome_bind_eq_some.1 h
    · obtain ⟨lines, hlines⟩ := writes_applyAttributes hg hpair
      obtain ⟨front, back, parts, st₂, rfl, hfront, hend⟩ := ih h
      exact ⟨pair :: front, back, lines :: parts, st₂, rfl, .cons hlines hfront, hend⟩
    · exact ⟨[], pair :: rest, [], st, rfl, .nil, .inr ⟨pair, rest, grid, fault, rfl, rfl, hpair⟩⟩

end

/-! ## The main statement -/

/-- What is written for a node once it is registered: what its pairs write, in their order, and
behind it what is written for the grid and for the children.  The pairs are all pairs of the node,
or those in front of one that stops the run. -/
def NodeWritten (cfg : Settings) (node : Fields) (e : Entity) (inner : Frame) (st : State)
    (r : Except Fault Unit) (st' : State) : Prop :=
  ∃ front rest parts st₁ later, node = front ++ rest ∧ SetInOrder cfg e inner front st parts st₁ ∧
    st'.body.reverse = st.body.reverse ++ parts.flatten ++ later ∧
    (rest = [] ∨ ∃ pair tail grid fault, rest = pair :: tail ∧ r = .error fault ∧
      (applyAttributes cfg (instantiate cfg) e [pair] inner grid).outcome st₁ = some
        (.error fault, st'))

lemma nodeWritten_populate {cfg : Settings} {node : Fields} {e : Entity} {f inner : Frame}
    {st st₀ st' : State}
    {r : Except Fault Unit} (hregister : (registerNode node e f).outcome st = some (.ok inner, st₀))
    (h : (populate cfg (instantiate cfg) node e f).outcome st = some (r, st')) :
    NodeWritten cfg node e inner st₀ r st' := by
  have hgrows := grows_instantiate cfg
  rw [populate_eq, outcome_bind, hregister] at h
  -- What comes behind the pairs that are set only adds to the code.
  have hwritten : ∀ {front parts st₁}, SetInOrder cfg e inner front st₀ parts st₁ →
      st₁.CodeGrows st' →
      ∃ later, st'.body.reverse = st₀.body.reverse ++ parts.flatten ++ later := by
    rintro front parts st₁ hfront ⟨⟨written, hbody⟩, -⟩
    exact ⟨written.reverse, by rw [← hbody, hfront.body]; simp⟩
  obtain ⟨grid, st₂, hattributes, h⟩ | ⟨fault, hattributes, rfl⟩ := outcome_bind_eq_some.1 h
  · obtain ⟨front, rest, parts, st₁, rfl, hfront, ⟨rfl, rfl, -⟩ | ⟨_, _, _, _, _, hr, -⟩⟩ :=
      setInOrder_applyAttributes hgrows hattributes
    · have hbehind := (keeps_finishGrid e grid).settles.grows.bind fun _ _ =>
        grows_processUnder hgrows cfg ((front ++ []).get? "children") e f inner
      obtain ⟨later, hlater⟩ := hwritten hfront (hbehind _ _ _ h)
      exact ⟨front, [], parts, st₂, later, rfl, hfront, hlater, .inl rfl⟩
    · cases hr
  · obtain ⟨front, rest, parts, st₁, rfl, hfront,
      ⟨-, -, _, hr⟩ | ⟨pair, tail, grid, _, rfl, hr, hstop⟩⟩ :=
      setInOrder_applyAttributes hgrows hattributes
    · cases hr
    · cases hr
      have hgrows₁ := grows_applyAttributes hgrows cfg e [pair] inner grid _ _ _ hstop
      obtain ⟨later, hlater⟩ := hwritten hfront hgrows₁
      exact ⟨front, _, parts, st₁, later, rfl, hfront, hlater,
        .inr ⟨pair, tail, grid, fault, rfl, rfl, hstop⟩⟩

/-- **One attribute has one effect.**  Setting an attribute ends in every state.  It writes comments
on what it reports and behind them one call, on the entity, of a function that may set the
attribute, or none; none if it fails.  It leaves the locals, the registry, the components and the
counters as they are.  So what is written for the attributes of a node stands in the order of the
document, an attribute that is given twice in two places. -/
theorem attributes_have_one_effect (cfg : Settings) :
    (∀ e key raw f at_ st, ∃ r st', (applySetter cfg e key raw f at_).outcome st = some (r, st') ∧
      OneEffect e key st r st') ∧
    ∀ node e f inner st st₁ r st', (registerNode node e f).outcome st = some (.ok inner, st₁) →
      (populate cfg (instantiate cfg) node e f).outcome st = some (r, st') →
      NodeWritten cfg node e inner st₁ r st' := by
  refine ⟨fun e key raw f at_ st => ?_, fun node e f inner st st₁ r st' hregister h =>
    nodeWritten_populate hregister h⟩
  obtain ⟨r, st', hr, -⟩ := keeps_applySetter cfg e f at_ key raw st
  exact ⟨r, st', hr, (setterEnds_applySetter hr).oneEffect⟩

def numberSettings : Settings :=
  settingsOf [declare "lv_obj_set_x" "void" ["lv_obj_t *", "int32_t"]]

/-- A box whose place is given three times, the last time by a text. -/
def restlessBox :
    Fields := [("x", .num "1"), ("id", .str "@box"), ("x", .num "2"), ("x", .str "'left'")]

def restlessBoxEntity : Entity where
  cname := "obj_1"
  ctype := "lv_obj_t *"
  isPointer := true
  nodeType := "obj"
  setterPrefix := "lv_obj"

set_option maxRecDepth 100000 in
theorem restlessBox_attributes_have_one_effect :
    ∃ inner st₁ st', (registerNode restlessBox restlessBoxEntity (rootFrame numberSettings)).outcome
        {} = some (.ok inner, st₁) ∧
      (populate numberSettings (instantiate numberSettings) restlessBox restlessBoxEntity
        (rootFrame numberSettings)).outcome {} = some (.ok (), st') ∧
      st'.body.tail = [.call "lv_obj_set_x" [.entity restlessBoxEntity, .text "2"],
        .call "lv_obj_set_x" [.entity restlessBoxEntity, .text "1"]] ∧
      NodeWritten numberSettings restlessBox restlessBoxEntity inner st₁ (.ok ()) st' := by
  have hrun : ((populate numberSettings (instantiate numberSettings) restlessBox restlessBoxEntity
      (rootFrame numberSettings)).outcome {}).map (fun r => (r.1.isOk, r.2.body.tail)) =
        some (true, [.call "lv_obj_set_x" [.entity restlessBoxEntity, .text "2"],
          .call "lv_obj_set_x" [.entity restlessBoxEntity, .text "1"]]) := by
    cbv
  obtain ⟨⟨r, st'⟩, hpopulate, hresult⟩ := Option.map_eq_some_iff.1 hrun
  obtain ⟨hok, hbody⟩ := Prod.mk.inj hresult
  cases r with
  | error fault => cases hok
  | ok _ =>
    exact ⟨_, _, st', rfl, hpopulate, hbody,
      (attributes_have_one_effect numberSettings).2 _ _ _ _ _ _ _ _ rfl hpopulate⟩

end UiCodegen.Transpile
