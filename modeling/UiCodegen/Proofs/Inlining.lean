import UiCodegen.Proofs.Lockstep

/-!
# A use of a component and the node it stands for

Wherever a component is used, its node could have been written instead.  This is so at every
position of a document where the use stands, on top or among children at any depth, and also inside
components, whose nodes are processed once for each instance: the two runs end in the same way and
leave the same code, the same registry and the same diagnostics.  It takes that the component stands
for that node each time the position is reached.

Equal uses may stand at several positions of a document.  The position in question is told from the
others by a mark: a further key, which uses ignore.
-/

namespace UiCodegen.Transpile

open Run State

variable {mark : Bytes} {st : State} {fill : Value → Value} {component : Bytes}
  {node node' use : Fields}

def useKeys : List Bytes := ["type", "id", "context"].map Bytes.ofString

def withMark (mark : Bytes) (use : Fields) : Fields := use.append mark .null

/-- The component stands for the node.  The position that is marked may lie inside the node itself.
-/
def State.Binds (st : State) (component : Bytes) (use root : Fields) (mark : Bytes) : Prop :=
  ∃ bound, st.components.lookup component = some bound ∧
    (bound = root ∨
      ∃ fill, Spot .node fill ∧ .obj root = fill (.obj use) ∧ .obj bound = fill
        (.obj (withMark mark use)))

/-- The states hold the same code, diagnostics and registry, and the same log but for debug records.
-/
structure State.SameResults (cfg : Settings) (st st' : State) : Prop where
  output : Output.ofState cfg st' = Output.ofState cfg st
  registry : st'.registry = st.registry
  log : Log.atLeast .info st'.log = Log.atLeast .info st.log

/-- However the first run ends, the second ends in the same way, with the same results. -/
def RunsLike (cfg : Settings) (st : State) (doc doc' : Value) : Prop :=
  ∀ r after, (run cfg doc).outcome st = some (r, after) →
    ∃ after', (run cfg doc').outcome st = some (r, after') ∧ after.SameResults cfg after'

lemma State.Alike.sameResults {Exchanged : Fields → Fields → Prop} {st' : State}
    (h : st.Alike Exchanged st') (cfg : Settings) : st.SameResults cfg st' where
  output := by
    have houtput : ∀ st, Output.ofState cfg st = Output.ofState cfg st.bare := fun _ => rfl
    rw [houtput st', houtput st, h.bare]
  registry := by
    have hregistry : st'.bare.registry = st.bare.registry := by rw [h.bare]
    exact hregistry
  log := h.log

section

variable {cfg : Settings} {Exchanged : Fields → Fields → Prop} {Visited : Call × State → Prop}

/-- Two documents that differ at one position, by exchanged nodes, are in lockstep. -/
lemma KeepsLockstep.matches_filled (h : KeepsLockstep cfg Exchanged Visited)
    (hfill : DocumentSpot fill) (hexchanged : Exchanged node node')
    (hvisit : Visited (.ofDocument cfg (fill (.obj node)), st)) :
    Matches Exchanged st st (run cfg (fill (.obj node))) (run cfg (fill (.obj node'))) := by
  have hdoc : Twin Exchanged (.ofDocument (fill (.obj node))) (fill (.obj node))
      (fill (.obj node')) := by
    obtain hspot | hspot := hfill
    · exact (hspot.twin hexchanged).ofDocument (.inl rfl)
    · exact (hspot.twin hexchanged).ofDocument (.inr rfl)
  exact h.matches_run hdoc hvisit (.refl st)

lemma KeepsLockstep.runsLike (h : KeepsLockstep cfg Exchanged Visited)
    (hfill : DocumentSpot fill) (hexchanged : Exchanged node node')
    (hvisit : Visited (.ofDocument cfg (fill (.obj node)), st)) :
    RunsLike cfg st (fill (.obj node)) (fill (.obj node')) := by
  intro r after hr
  obtain ⟨after', hr', halike⟩ := h.matches_filled hfill hexchanged hvisit r after hr
  exact ⟨after', hr', halike.sameResults cfg⟩

end

lemma get?_withMark (hmark : mark ∉ useKeys) (use : Fields) :
    ∀ key ∈ useKeys, (withMark mark use).get? key = use.get? key := by
  intro key hkey
  have hne : (mark == key) = false := by
    rw [beq_eq_false_iff_ne]
    rintro rfl
    exact hmark hkey
  simp only [withMark, Fields.append, Fields.get?, List.foldl_append, List.foldl_cons,
    List.foldl_nil, hne, Bool.false_eq_true, if_false]

lemma use?_withMark (hmark : mark ∉ useKeys) (use : Fields) :
    use? (withMark mark use) = use? use := by
  have htype := get?_withMark hmark use "type" (by decide)
  have hid := get?_withMark hmark use "id" (by decide)
  simp only [use?, componentName?, Fields.getString?, htype, hid]

lemma runsLike_withMark (cfg : Settings) (huse : use? use = some component)
    (hmark : mark ∉ useKeys) (hfill : DocumentSpot fill) (st : State) :
    RunsLike cfg st (fill (.obj use)) (fill (.obj (withMark mark use))) := by
  have h : Exchange cfg (fun node node' => node = use ∧ node' = withMark mark use) fun _ =>
      True := by
    refine ⟨fun _ _ => trivial, ?_⟩
    rintro _ _ ⟨rfl, rfl⟩
    exact ⟨component, huse, .inl (get?_withMark hmark _)⟩
  exact h.keepsLockstep.runsLike hfill ⟨rfl, rfl⟩ trivial

/-- In place of a marked use there can be the node that the component stands for whenever the use is
reached. -/
lemma runsLike_inlined {cfg : Settings} {root : Fields}
    (huse : use? use = some component) (hcontext : use.get? "context" = none)
    (hmark : mark ∉ useKeys)
    (hfill : DocumentSpot fill)
    (hbinds : ∀ f st', Reaches cfg (fill (.obj (withMark mark use))) st (withMark mark use) f st' →
      st'.Binds component use root mark) :
    RunsLike cfg st (fill (.obj (withMark mark use))) (fill (.obj root)) := by
  -- Where the marked position lies inside the node, the node has the use without the mark there.
  have h : Exchange cfg (fun node node' => node = withMark mark use ∧ (node' = use ∨ node' = root))
      fun at_ => Relation.ReflTransGen (Calls cfg)
        (.ofDocument cfg (fill (.obj (withMark mark use))), st) at_ := by
    refine ⟨fun hvisit hcall => hvisit.tail hcall, ?_⟩
    rintro _ node' ⟨rfl, hnode'⟩
    refine ⟨component, (use?_withMark hmark use).trans huse, ?_⟩
    obtain rfl | rfl := hnode'
    · exact .inl fun key hkey => (get?_withMark hmark node' key hkey).symm
    · refine .inr ⟨(get?_withMark hmark use _ (by decide)).trans hcontext, fun f st' hvisit => ?_⟩
      obtain ⟨bound, hlookup, rfl | ⟨inner, hinner, hroot, hbound⟩⟩ := hbinds f st' hvisit
      · exact ⟨bound, hlookup, .same _ _⟩
      · refine ⟨bound, hlookup, ?_⟩
        rw [hroot, hbound]
        exact hinner.twin ⟨rfl, .inl rfl⟩
  exact h.keepsLockstep.runsLike hfill ⟨rfl, .inr rfl⟩ .refl

lemma RunsLike.trans {cfg : Settings} {st : State} {doc₁ doc₂ doc₃ : Value}
    (h : RunsLike cfg st doc₁ doc₂)
    (h' : RunsLike cfg st doc₂ doc₃) : RunsLike cfg st doc₁ doc₃ := by
  intro r after hr
  obtain ⟨after₂, hr₂, hsame⟩ := h r after hr
  obtain ⟨after₃, hr₃, hsame'⟩ := h' r after₂ hr₂
  exact ⟨after₃, hr₃, hsame'.output.trans hsame.output, hsame'.registry.trans hsame.registry,
    hsame'.log.trans hsame.log⟩

/-- Replacing a use without a context by the node that its component stands for gives the same run,
whatever the document is and wherever the use stands in it.  With a context a use comes to exactly
what the node comes to in the scope of the context, apart from notes about keys that it ignores. -/
theorem use_runs_like_its_node (cfg : Settings) :
    (∀ {use root : Fields} {component mark : Bytes} {fill : Value → Value} {st : State},
      use? use = some component → use.get? "context" = none → mark ∉ useKeys → DocumentSpot fill →
      (∀ f st', Reaches cfg (fill (.obj (withMark mark use))) st (withMark mark use) f st' →
        st'.Binds component use root mark) →
      RunsLike cfg st (fill (.obj use)) (fill (.obj (withMark mark use))) ∧
        RunsLike cfg st (fill (.obj use)) (fill (.obj root))) ∧
    (∀ {use root context : Fields} {component : Bytes} {st : State} (f : Frame),
      use? use = some component → use.get? "context" = some (.obj context) →
      st.components.lookup component = some root →
      (processNode cfg (instantiate cfg) (.obj use) f).outcome st =
        (processNode cfg (instantiate cfg) (.obj root)
          { f with scope := context :: f.scope }).outcome
          { st with log := ignoredNotes use f.at_ ++ st.log } ∧
        ∀ note ∈ ignoredNotes use f.at_, note.level = .debug) := by
  constructor
  · intro use root component mark fill st huse hcontext hmark hfill hbinds
    have hmarked := runsLike_withMark cfg huse hmark hfill st
    exact ⟨hmarked, hmarked.trans (runsLike_inlined huse hcontext hmark hfill hbinds)⟩
  · intro use root context component st f huse hcontext hroot
    refine ⟨?_, level_ignoredNotes use f.at_⟩
    have hsome : use.get? "context" = (some context).map .obj := hcontext
    rw [processNode, processNode, outcome_use huse hsome, hroot, ← outcome_instantiate]
    rfl

/-! ### A component that is defined and then used -/

def styleNode : Fields := [("type", .str "style")]

def styleComponent :
    Fields := [("type", .str "component"), ("id", .str "@c"), ("root", .obj styleNode)]

/-- The document that defines the component, with a further node behind the definition. -/
def behindStyle (v : Value) : Value := .arr [.obj styleComponent, v]

lemma outcome_styleComponent (f : Frame) :
    (guarded (processNode bareSettings (instantiate bareSettings) (.obj styleComponent) f)).outcome
      {} = some (.ok (), { components := [("c", styleNode)] }) := by
  cbv

def styleCreated : State :=
  { components := [("c", styleNode)], definitions := [.style "c_style_1"],
    body := [.initStyle "c_style_1"],
    counter := 1, entities := 1 }

lemma outcome_useStyle (f : Frame) :
    (guarded (processNode bareSettings (instantiate bareSettings) (.obj (useOf "c")) f)).outcome
      { components := [("c", styleNode)] } = some (.ok (), styleCreated) := by
  rw [guarded, outcome_recover, processNode, outcome_useOf _ _ (by decide) f rfl,
    outcome_instantiate]
  cbv

/-- What the run comes to if the component is used there, with a mark on the use. -/
def MetBehindStyle : Call × State → Prop
  | (.children nodes _ _, st) =>
    nodes = [.obj styleComponent, .obj (withMark "m" (useOf "c"))] ∧ st = {} ∨
      nodes = [.obj (withMark "m" (useOf "c"))] ∧ st.components.lookup ("c" : Bytes) =
        some styleNode ∨ nodes = []
  | (.node v _, st) =>
    v = .obj styleComponent ∨
      v = .obj (withMark "m" (useOf "c")) ∧ st.components.lookup ("c" : Bytes) = some styleNode ∨
        v = .obj styleNode
  | (.inside node _ _, _) => node = styleNode
  | (.attributes _ pairs _ _, _) => pairs = styleNode ∨ pairs = []
  | (.blocks .., _) | (.block .., _) => False

lemma MetBehindStyle.next {a b : Call × State} (ha : MetBehindStyle a)
    (h : Calls bareSettings a b) : MetBehindStyle b := by
  -- A node that calls for something is the use or the style, by its kind.
  have hkind : ∀ {node : Fields} {f : Frame} {st : State} {type : Option Bytes} {kind : NodeKind},
      MetBehindStyle (.node (.obj node) f, st) → textField node "type" f.at_ = pure type →
      NodeKind.ofType type = kind → kind = .component ∨
        kind = .use ∧ node = withMark "m" (useOf "c") ∧ st.components.lookup ("c" : Bytes) =
          some styleNode ∨
        kind = .style ∧ node = styleNode := by
    rintro node f st type kind ha htype rfl
    rw [← kindOf_of_textField htype]
    rcases ha with heq | ⟨heq, hlookup⟩ | heq <;> cases heq
    · exact .inl (by decide)
    · exact .inr (.inl ⟨by decide, rfl, hlookup⟩)
    · exact .inr (.inr ⟨by decide, rfl⟩)
  cases h with
  | body htype hcontext =>
    rcases hkind ha htype hcontext with heq | ⟨heq, -⟩ | ⟨heq, -⟩ <;> cases heq
  | @use node root f st type name context htype huse hname hcontext hroot =>
    obtain heq | ⟨-, rfl, hlookup⟩ | ⟨heq, -⟩ := hkind ha htype huse
    · cases heq
    · have hread : (componentName (withMark "m" (useOf "c")) "use-view" f.at_).outcome {} =
        some (.ok name, {}) := by
        rw [hname, outcome_pure]
      have hused : componentName? (withMark "m" (useOf "c")) = some ("c" : Bytes) := by decide
      obtain rfl := Option.some.inj ((componentName_ok hread).symm.trans hused)
      obtain rfl := Option.some.inj (hroot.symm.trans hlookup)
      exact .inr (.inr rfl)
    · cases heq
  | style htype hstyle hcreate =>
    obtain heq | ⟨heq, -⟩ | ⟨-, rfl⟩ := hkind ha htype hstyle
    · cases heq
    · cases heq
    · rfl
  | widget htype hwidget hcreate =>
    rcases hkind ha htype hwidget with heq | ⟨heq, -⟩ | ⟨heq, -⟩ <;> cases heq
  | attributes => exact .inl ha
  | children hregister hattributes hgrid hnodes he =>
    cases ha
    cases hnodes
  | child =>
    rcases ha with ⟨heq, -⟩ | ⟨heq, hlookup⟩ | heq <;> cases heq
    · exact .inl rfl
    · exact .inr (.inl ⟨rfl, hlookup⟩)
  | nextChild hchild =>
    rcases ha with ⟨heq, rfl⟩ | ⟨heq, hlookup⟩ | heq <;> cases heq
    · rw [outcome_styleComponent] at hchild
      cases hchild
      exact .inr (.inl ⟨rfl, rfl⟩)
    · exact .inr (.inr rfl)
  | withBlock | withBlocks => rcases ha with heq | heq <;> cases heq
  | nextAttribute hpair =>
    rcases ha with heq | heq <;> cases heq
    exact .inr rfl
  | firstBlock => exact ha.elim
  | nextBlock => exact ha.elim
  | inner => exact ha.elim

lemma binds_behindStyle {f : Frame}
    (h : Reaches bareSettings (behindStyle (.obj (withMark "m" (useOf "c")))) {}
      (withMark "m" (useOf "c")) f st) :
    st.Binds "c" (useOf "c") styleNode "m" := by
  have hmet : MetBehindStyle (.node (.obj (withMark "m" (useOf "c"))) f, st) :=
    LeadsTo.invariant h (.inl ⟨rfl, rfl⟩) fun _ _ => MetBehindStyle.next
  rcases hmet with heq | ⟨-, hlookup⟩ | heq
  · cases heq
  · exact ⟨styleNode, hlookup, .inl rfl⟩
  · cases heq

/-- The use behind the definition can be replaced by the style, and the run with the use creates
one.  With bindings on the use, it comes to what the style comes to in their scope. -/
theorem behindStyle_use_runs_like_style :
    RunsLike bareSettings {} (behindStyle (.obj (useOf "c"))) (behindStyle (.obj styleNode)) ∧
      (∃ after, (run bareSettings (behindStyle (.obj (useOf "c")))).outcome {} = some
        (.ok (), after) ∧ after.entities = 1) ∧
      (processNode bareSettings (instantiate bareSettings)
          (.obj ((useOf "c").append "context" (.obj [("x", .null)])))
          (rootFrame bareSettings)).outcome { components := [("c", styleNode)] } =
        (processNode bareSettings (instantiate bareSettings) (.obj styleNode)
          { rootFrame bareSettings with scope := [[("x", .null)]] }).outcome
            { components := [("c", styleNode)] } := by
  have hfill : DocumentSpot behindStyle := .inr (.item [.obj styleComponent] [] .here)
  have huse : use? (useOf "c") = some ("c" : Bytes) := by decide
  have hcontext : (useOf "c").get? "context" = none := by decide
  have hmark : (Bytes.ofString "m") ∉ useKeys := by decide
  have huse' : use? ((useOf "c").append "context" (.obj [("x", .null)])) =
      some ("c" : Bytes) := by decide
  refine ⟨((use_runs_like_its_node bareSettings).1 huse hcontext hmark hfill fun f st h =>
    binds_behindStyle h).2,
    ⟨styleCreated, ?_, rfl⟩,
      ((use_runs_like_its_node bareSettings).2 (rootFrame bareSettings) huse' rfl rfl).1⟩
  change (processChildren bareSettings (instantiate bareSettings)
    [.obj styleComponent, .obj (useOf "c")] 0
    (rootFrame bareSettings)).outcome {} = some (.ok (), styleCreated)
  simp only [processChildren, outcome_bind, outcome_styleComponent, outcome_useStyle, outcome_pure]

end UiCodegen.Transpile
