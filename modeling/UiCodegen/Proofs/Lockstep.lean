import UiCodegen.Proofs.Blindness
import UiCodegen.Proofs.Traversal
import UiCodegen.Proofs.Twins

/-!
# Twin documents in lockstep

Two runs of twin documents go on in lockstep as long as exchanged nodes come to the same.  Their
states are alike then: they differ in the components, which are twins, and in log records of no
importance, and agree in everything else.  The argument goes along the traversal of the first
document.  Uses of components lead out of a document into the node of a component; there the runs
stay in lockstep by induction over the instances that end.
-/

namespace UiCodegen.Transpile

open Run State

variable {Exchanged : Fields → Fields → Prop} {grid : Grid} {key name : Bytes} {f : Frame}
  {st st' : State} {v v' : Value} {e : Entity} {i : Nat} {block block' rest : Fields}
  {at_ : Pointer} {node node' : Fields}

/-! ## States that are alike -/

/-- The states agree but for twins among the components and for debug records. -/
structure State.Alike (Exchanged : Fields → Fields → Prop) (st st' : State) : Prop where
  bare : st'.bare = st.bare
  components : List.Forall₂ (fun c c' => c'.1 = c.1 ∧ Twin Exchanged .node (.obj c.2) (.obj c'.2))
    st.components st'.components
  log : Log.atLeast .info st'.log = Log.atLeast .info st.log

namespace State.Alike

lemma refl (st : State) : st.Alike Exchanged st where
  bare := rfl
  components := List.forall₂_same.2 fun _ _ => ⟨rfl, .same _ _⟩
  log := rfl

variable (h : st.Alike Exchanged st')
include h

/-- A name stands for twins, or for nothing. -/
lemma rel_lookup (name : Bytes) :
    Option.Rel (fun root root' => Twin Exchanged .node (.obj root) (.obj root'))
      (st.components.lookup name) (st'.components.lookup name) := by
  have hcomponents := h.components
  generalize st.components = components, st'.components = components' at hcomponents
  induction hcomponents with
  | nil => exact .none
  | @cons c c' rest rest' hc _ ih =>
    obtain ⟨hkey, htwin⟩ := hc
    rw [List.lookup_cons, List.lookup_cons, hkey]
    cases name == c.1 with
    | true => exact .some htwin
    | false => exact ih

lemma lookup_none (hlookup : st.components.lookup name = none) :
    st'.components.lookup name = none :=
  eq_none_of_rel (hlookup ▸ h.rel_lookup name)

lemma lookup_some {root : Fields} (hlookup : st.components.lookup name = some root) :
    ∃ root', st'.components.lookup name = some root' ∧ Twin Exchanged .node (.obj root)
    (.obj root') :=
  exists_of_rel (hlookup ▸ h.rel_lookup name)

/-- What steps write on top of both logs keeps states alike. -/
lemma onto (after : State) : (after.onto st).Alike Exchanged (after.onto st') where
  bare := rfl
  components := h.components
  log := by
    have hlog := h.log
    simp only [State.onto, Log.atLeast, List.filter_append] at hlog ⊢
    rw [hlog]

lemma reported (p : Problem) (at_ : Pointer) :
    (st.reported p at_).Alike Exchanged (st'.reported p at_) := by
  have hst : st.reported p at_ = (st.bare.reported p at_).onto st := rfl
  have hst' : st'.reported p at_ = (st'.bare.reported p at_).onto st' := rfl
  rw [hst, hst', h.bare]
  exact h.onto _

/-- Debug records make no difference. -/
lemma note {records records' : List Log.Record}
    (hrecords : ∀ r ∈ records, r.level = .debug) (hrecords' : ∀ r ∈ records', r.level = .debug) :
    { st with log := records ++ st.log }.Alike Exchanged
    { st' with log := records' ++ st'.log } where
  bare := h.bare
  components := h.components
  log := by
    have hnone : ∀ records : List Log.Record, (∀ r ∈ records, r.level = .debug) →
        Log.atLeast .info records = [] := by
      intro records hrecords
      refine List.filter_eq_nil_iff.2 fun r hr => ?_
      rw [hrecords r hr]
      decide
    have hlog := h.log
    have hleft := hnone records hrecords
    have hright := hnone records' hrecords'
    simp only [Log.atLeast, List.filter_append] at hlog hleft hright ⊢
    rw [hleft, hright, List.nil_append, List.nil_append, hlog]

end State.Alike

/-! ## Steps in lockstep -/

namespace Run

variable {α β : Type} {st st' : State}

/-- Whatever `x` comes to from the first state, `x'` comes to from the second; the states they leave
are alike. -/
def Matches (Exchanged : Fields → Fields → Prop) (st st' : State) (x x' : Run α) : Prop :=
  ∀ r after, x.outcome st = some (r, after) →
    ∃ after', x'.outcome st' = some (r, after') ∧ after.Alike Exchanged after'

/-- Blind steps make no difference between states that are alike. -/
lemma Blind.matches {x : Run α} (hx : x.Blind) (hst : st.Alike Exchanged st') :
    Matches Exchanged st st' x x := by
  intro r last hr
  rw [hx st, Option.map_eq_some_iff] at hr
  obtain ⟨⟨r, after⟩, hafter, heq⟩ := hr
  cases heq
  refine ⟨after.onto st', ?_, hst.onto after⟩
  rw [hx st', hst.bare, hafter]
  rfl

lemma Matches.bind {x x' : Run α} {k k' : α → Run β} (hx : Matches Exchanged st st' x x')
    (hk : ∀ a after after', x.outcome st = some (.ok a, after) → after.Alike Exchanged after' →
      Matches Exchanged after after' (k a) (k' a)) :
    Matches Exchanged st st' (x >>= k) (x' >>= k') := by
  intro r last hr
  obtain ⟨a, after, hfirst, hsecond⟩ | ⟨e, hfirst, rfl⟩ := outcome_bind_eq_some.1 hr
  · obtain ⟨after', hfirst', halike⟩ := hx _ _ hfirst
    obtain ⟨last', hsecond', halike'⟩ := hk a after after' hfirst halike r last hsecond
    exact ⟨last', outcome_bind_eq_some.2 (.inl ⟨a, after', hfirst', hsecond'⟩), halike'⟩
  · obtain ⟨after', hfirst', halike⟩ := hx _ _ hfirst
    exact ⟨after', outcome_bind_eq_some.2 (.inr ⟨e, hfirst', rfl⟩), halike⟩

lemma Matches.recover {x x' : Run α} (hx : Matches Exchanged st st' x x') (otherwise : α) :
    Matches Exchanged st st' (recover otherwise x) (recover otherwise x') := by
  intro r last hr
  rw [outcome_recover] at hr
  match hout : x.outcome st with
  | none => simp [hout] at hr
  | some (.ok a, after) =>
    obtain ⟨after', hout', halike⟩ := hx _ _ hout
    rw [hout] at hr
    cases hr
    exact ⟨after', by rw [outcome_recover, hout'], halike⟩
  | some (.error (.violation v at_), after) =>
    obtain ⟨after', hout', halike⟩ := hx _ _ hout
    rw [hout] at hr
    cases hr
    exact ⟨after', by rw [outcome_recover, hout'], halike⟩
  | some (.error (.problem p at_), after) =>
    obtain ⟨after', hout', halike⟩ := hx _ _ hout
    rw [hout] at hr
    cases hr
    exact ⟨after'.reported p at_, by rw [outcome_recover, hout'], halike.reported p at_⟩

/-- Steps that look at the state may differ in what they do, as long as they come to the same. -/
lemma matches_get_bind {k k' : State → Run α} (h : Matches Exchanged st st' (k st) (k' st')) :
    Matches Exchanged st st' ((get : Run State) >>= k) ((get : Run State) >>= k') := by
  intro r last hr
  rw [outcome_bind, outcome_get] at hr
  obtain ⟨last', hr', halike⟩ := h r last hr
  exact ⟨last', by rw [outcome_bind, outcome_get]; exact hr', halike⟩

lemma matches_throw_bind (fault : Fault) (hst : st.Alike Exchanged st') (k k' : α → Run β) :
    Matches Exchanged st st' (throw fault >>= k) (throw fault >>= k') :=
  ((blind_throw fault).matches hst).bind fun _ _ _ h => by cases h

/-- What follows steps that are decided is in lockstep if it is so for their result. -/
lemma Decided.matches_bind {x : Run α} (hx : x.Decided) (hst : st.Alike Exchanged st')
    {k k' : α → Run β} (hk : ∀ a, x = pure a → Matches Exchanged st st' (k a) (k' a)) :
    Matches Exchanged st st' (x >>= k) (x >>= k') := by
  obtain ⟨a, ha⟩ | ⟨fault, rfl⟩ := hx
  · have hka := hk a ha
    rw [ha, pure_bind, pure_bind]
    exact hka
  · exact matches_throw_bind fault hst k k'

end Run

/-! ## Fields of nodes -/

lemma textField_congr (h : node'.get? key = node.get? key) (at_ : Pointer) :
    textField node' key at_ = textField node key at_ := by
  unfold textField
  rw [h]

lemma objectField_congr (h : node'.get? key = node.get? key) (at_ : Pointer) :
    objectField node' key at_ = objectField node key at_ := by
  unfold objectField
  rw [h]

lemma componentName_congr (h : node'.get? "id" = node.get? "id") (kind : Bytes)
    (at_ : Pointer) : componentName node' kind at_ = componentName node kind at_ := by
  unfold componentName
  rw [textField_congr h]

lemma registerNode_congr (hid : node'.get? "id" = node.get? "id")
    (hnamed : node'.get? "named" = node.get? "named")
    (hcontext : node'.get? "context" = node.get? "context")
    (e : Entity) (f : Frame) : registerNode node' e f = registerNode node e f := by
  unfold registerNode registerId registerName
  rw [textField_congr hid, textField_congr hnamed, objectField_congr hcontext]

/-! ## Twins in lockstep -/

/-- What keeps twins in lockstep where the traversal of the first one comes to. -/
structure Lockstep (cfg : Settings) (Exchanged : Fields → Fields → Prop)
    (Visited : Call × State → Prop) (g : Fields → Frame → Run Unit) : Prop where
  visited {a b : Call × State} : Visited a → Calls cfg a b → Visited b
  /-- Instances come to what they come to in a run, if they end. -/
  approached (node : Fields) (f : Frame) : (g node f).ApproachedBy fun _ => instantiate cfg node f
  instances {node node' : Fields} {f : Frame} {st st' : State} :
    Visited (.node (.obj node) f, st) → Twin Exchanged .node (.obj node) (.obj node') →
      st.Alike Exchanged st' → Matches Exchanged st st' (g node f) (instantiate cfg node' f)
  exchanged {node node' : Fields} {f : Frame} {st st' : State} :
    Visited (.node (.obj node) f, st) → Exchanged node node' → st.Alike Exchanged st' →
      Matches Exchanged st st' (processFields cfg g node f)
        (processFields cfg (instantiate cfg) node f) →
      Matches Exchanged st st' (processFields cfg g node f)
        (processFields cfg (instantiate cfg) node' f)

section

variable {cfg : Settings} {Visited : Call × State → Prop} {g : Fields → Frame → Run Unit}
  {st st' : State}

lemma level_ignoredNotes (node : Fields) (at_ : Pointer) :
    ∀ r ∈ ignoredNotes node at_, r.level = .debug := by
  intro r hr
  obtain ⟨key, -, rfl⟩ := List.mem_map.1 (List.mem_reverse.1 hr)
  rfl

lemma matches_defineComponent (hnode : TwinFields Exchanged NodeKind.component.role node node')
    (hst : st.Alike Exchanged st') (at_ : Pointer) :
    Matches Exchanged st st' (defineComponent node at_) (defineComponent node' at_) := by
  have hid : node'.get? "id" = node.get? "id" := hnode.get?_eq (by decide)
  have hadd : ∀ {name : Bytes} {root root' : Fields} {after after' : State},
      Twin Exchanged .node (.obj root) (.obj root') → after.Alike Exchanged after' →
      Matches Exchanged after after'
        (modify fun st => { st with components := (name, root) :: st.components })
        (modify fun st => { st with components := (name, root') :: st.components }) := by
    intro name root root' after after' hroot halike r last hr
    cases hr
    exact ⟨_, rfl, halike.bare, .cons ⟨rfl, hroot⟩ halike.components, halike.log⟩
  unfold defineComponent
  rw [componentName_congr hid]
  refine (decided_componentName node _ at_).matches_bind hst fun name _ => ?_
  cases hroot : node.get? "root" with
  | none =>
    have hroot' := hnode.get?_none hroot
    simp only [objectField, hroot, hroot', pure_bind]
    exact (blind_throw _).matches hst
  | some v =>
    obtain ⟨v', hroot', hv⟩ := hnode.get?_some hroot
    have hshape := hv.shape (by decide)
    cases v with
    | obj root =>
      obtain ⟨root', rfl⟩ := hshape
      simp only [objectField, hroot, hroot', pure_bind]
      refine matches_get_bind ?_
      -- Whether the component is there already is the same in both states.
      have hseen : (st'.components.lookup name).isSome = (st.components.lookup name).isSome := by
        cases hlookup : st.components.lookup name with
        | none => rw [hst.lookup_none hlookup]
        | some old =>
          obtain ⟨old', hlookup', -⟩ := hst.lookup_some hlookup
          rw [hlookup']
          rfl
      rw [hseen]
      split
      · exact ((blind_warn _ at_).matches hst).bind fun _ _ _ _ halike => hadd hv halike
      · exact hadd hv hst
    | arr items =>
      obtain ⟨items', rfl, -⟩ := hshape
      simp only [objectField, hroot, hroot']
      exact matches_throw_bind _ hst _ _
    | _ =>
      dsimp only at hshape
      subst hshape
      simp only [objectField, hroot, hroot']
      exact matches_throw_bind _ hst _ _

/-- Uses of one component in one context are in lockstep if the instances are, whatever else they
hold. -/
lemma matches_use {type : Option Bytes}
    (htype : textField node "type" f.at_ = pure type) (hkind : NodeKind.ofType type = .use)
    (hid : node'.get? "id" = node.get? "id") (hcontext : node'.get? "context" = node.get? "context")
    (hst : st.Alike Exchanged st')
    (hinstance : ∀ {root root' : Fields} {inner : Frame} {after after' : State},
      Calls cfg (.node (.obj node) f, st) (.node (.obj root) inner, after) →
      Twin Exchanged .node (.obj root) (.obj root') → after.Alike Exchanged after' →
      Matches Exchanged after after' (g root inner) (instantiate cfg root' inner)) :
    Matches Exchanged st st' (useComponent g node f) (useComponent (instantiate cfg) node' f) := by
  unfold useComponent
  rw [componentName_congr hid, objectField_congr hcontext]
  refine (decided_componentName node _ f.at_).matches_bind hst fun name hname => ?_
  refine (decided_objectField node _ f.at_).matches_bind hst fun context hcontext =>
    matches_get_bind ?_
  cases hroot : st.components.lookup name with
  | none =>
    rw [hst.lookup_none hroot]
    exact (blind_throw _).matches hst
  | some root =>
    obtain ⟨root', hroot', htwin⟩ := hst.lookup_some hroot
    rw [hroot']
    refine Matches.bind ?_ fun _ after after' hnote halike => ?_
    · rintro r after ⟨⟩
      exact ⟨_, rfl, hst.note (level_ignoredNotes node f.at_) (level_ignoredNotes node' f.at_)⟩
    · cases hnote
      exact hinstance (.use htype hkind hname hcontext hroot) htwin halike

lemma attributeRole_eq_value (hwith : (key == "with") = false)
    (hmeta : metaKeys.contains key = false) : attributeRole key = .value := by
  have hchildren : (key == "children") = false := by
    by_contra hkey
    rw [Bool.not_eq_false, beq_iff_eq] at hkey
    subst hkey
    exact absurd hmeta (by decide)
  have hdo : (key == "do") = false := by
    by_contra hkey
    rw [Bool.not_eq_false, beq_iff_eq] at hkey
    subst hkey
    exact absurd hmeta (by decide)
  simp only [attributeRole, hchildren, hwith, hdo, Bool.false_eq_true, if_false]

lemma blockTarget_congr (hobj : block'.get? "obj" = block.get? "obj") (e : Entity) (f : Frame)
    (at_ : Pointer) : blockTarget cfg e block' f at_ = blockTarget cfg e block f at_ := by
  unfold blockTarget
  rw [hobj]

/-- Twins of nodes below a size are in lockstep, and so is what is inside them. -/
structure LockstepBelow (cfg : Settings) (Exchanged : Fields → Fields → Prop)
    (Visited : Call × State → Prop) (g : Fields → Frame → Run Unit) (size : Nat) : Prop where
  node {node node' : Fields} {f : Frame} {st st' : State} : sizeOf node < size →
    Twin Exchanged .node (.obj node) (.obj node') → Visited (.node (.obj node) f, st) →
      st.Alike Exchanged st' →
      Matches Exchanged st st' (processFields cfg g node f)
        (processFields cfg (instantiate cfg) node' f)
  inside {node node' : Fields} {e : Entity} {f : Frame} {st st' : State} : sizeOf node < size →
    TwinFields Exchanged attributeRole node node' → Visited (.inside node e f, st) →
      st.Alike Exchanged st' →
      Matches Exchanged st st' (populate cfg g node e f) (populate cfg (instantiate cfg) node' e f)

section

variable {size : Nat} (h : Lockstep cfg Exchanged Visited g)
  (hbelow : LockstepBelow cfg Exchanged Visited g size)
include hbelow

lemma matches_processNode (hsize : sizeOf v ≤ size) (hv : Twin Exchanged .node v v')
    (hvisit : Visited (.node v f, st)) (hst : st.Alike Exchanged st') :
    Matches Exchanged st st' (processNode cfg g v f) (processNode cfg (instantiate cfg) v' f) := by
  have hshape := hv.shape (by decide)
  cases v with
  | obj node =>
    obtain ⟨node', rfl⟩ := hshape
    have hnode : sizeOf node < size := by
      rw [Value.obj.sizeOf_spec] at hsize
      omega
    rw [processNode, processNode]
    exact hbelow.node hnode hv hvisit hst
  | arr items =>
    obtain ⟨items', rfl, -⟩ := hshape
    rw [processNode, processNode]
    · exact (blind_throw _).matches hst
    all_goals rintro _ ⟨⟩
  | _ =>
    dsimp only at hshape
    subst hshape
    rw [processNode, processNode]
    · exact (blind_throw _).matches hst
    all_goals rintro _ ⟨⟩

include h

lemma matches_processChildren {nodes nodes' : List Value}
    (hsize : sizeOf nodes ≤ size) (hnodes : TwinItems Exchanged .node nodes nodes')
    (hvisit : Visited (.children nodes i f, st)) (hst : st.Alike Exchanged st') :
    Matches Exchanged st st' (processChildren cfg g nodes i f)
      (processChildren cfg (instantiate cfg) nodes' i f) := by
  induction nodes generalizing nodes' i st st' with
  | nil =>
    cases hnodes
    rw [processChildren, processChildren]
    exact (blind_pure _).matches hst
  | cons v rest ih =>
    cases hnodes with
    | cons hv hrest =>
      rw [List.cons.sizeOf_spec] at hsize
      rw [processChildren, processChildren]
      refine ((matches_processNode hbelow (by omega) hv (h.visited hvisit .child) hst).recover
        ()).bind fun _ after after' hchild halike => ?_
      have hlift := (ApproachedBy.recover () ((carries_approachedBy h.approached).node v
        { f with at_ := f.at_.index i } trivial)).outcome hchild
      exact ih (by omega) hrest (h.visited hvisit (.nextChild hlift)) halike

lemma matches_withBlock (hsize : sizeOf block ≤ size)
    (hblock : TwinFields Exchanged blockRole block block')
    (hvisit : Visited (.block e block f at_, st)) (hst : st.Alike Exchanged st') :
    Matches Exchanged st st' (withBlock cfg g e block f at_)
      (withBlock cfg (instantiate cfg) e block' f at_) := by
  rw [withBlock_eq, withBlock_eq, blockTarget_congr (hblock.get?_eq (by decide))]
  refine ((blind_blockTarget cfg e f at_ block).matches hst).bind
    fun target after after' htarget halike => ?_
  cases hinner : block.get? "do" with
  | none =>
    rw [hblock.get?_none hinner]
    exact (blind_pure _).matches halike
  | some v =>
    obtain ⟨v', hinner', hv⟩ := hblock.get?_some hinner
    rw [hinner']
    have hshape := hv.shape (by decide)
    cases v with
    | obj inner =>
      obtain ⟨inner', rfl⟩ := hshape
      have hlt := Fields.sizeOf_lt_of_get?_obj hinner
      obtain hfields | ⟨hrole, -⟩ := hv.fields_or_exchanged (by decide)
      · exact hbelow.inside (by omega) hfields (h.visited hvisit (.inner htarget hinner)) halike
      · cases hrole
    | arr items =>
      obtain ⟨items', rfl, -⟩ := hshape
      exact (blind_throw _).matches halike
    | _ =>
      dsimp only at hshape
      subst hshape
      exact (blind_throw _).matches halike

lemma matches_withBlocks {blocks blocks' : List Value} (hsize : sizeOf blocks ≤ size)
    (hblocks : TwinItems Exchanged .block blocks blocks')
    (hvisit : Visited (.blocks e blocks i f at_, st)) (hst : st.Alike Exchanged st') :
    Matches Exchanged st st' (withBlocks cfg g e blocks i f at_)
      (withBlocks cfg (instantiate cfg) e blocks' i f at_) := by
  induction blocks generalizing blocks' i st st' with
  | nil =>
    cases hblocks
    rw [withBlocks, withBlocks]
    exact (blind_pure _).matches hst
  | cons v rest ih =>
    cases hblocks with
    | cons hv hrest =>
      rw [List.cons.sizeOf_spec] at hsize
      have hshape := hv.shape (by decide)
      cases v with
      | obj block =>
        obtain ⟨block', rfl⟩ := hshape
        rw [Value.obj.sizeOf_spec] at hsize
        obtain hblock | ⟨hrole, -⟩ := hv.fields_or_exchanged (by decide)
        · rw [withBlocks, withBlocks]
          refine ((matches_withBlock h hbelow (by omega) hblock (h.visited hvisit .firstBlock)
            hst).recover ()).bind fun _ after after' hfirst halike => ?_
          have hlift :=
            (ApproachedBy.recover () ((carries_approachedBy h.approached).block e block f
            (at_.index i) trivial)).outcome hfirst
          exact ih (by omega) hrest (h.visited hvisit (.nextBlock hlift)) halike
        · cases hrole
      | arr items =>
        obtain ⟨items', rfl, -⟩ := hshape
        rw [withBlocks, withBlocks]
        · exact (blind_throw _).matches hst
        all_goals rintro _ ⟨⟩
      | _ =>
        dsimp only at hshape
        subst hshape
        rw [withBlocks, withBlocks]
        · exact (blind_throw _).matches hst
        all_goals rintro _ ⟨⟩

lemma matches_applyWith (hsize : sizeOf v ≤ size) (hv : Twin Exchanged .blocks v v')
    (hvisit : Visited (.attributes e (("with", v) :: rest) f grid, st))
    (hst : st.Alike Exchanged st') :
    Matches Exchanged st st' (applyWith cfg g e v f (f.at_.key "with"))
      (applyWith cfg (instantiate cfg) e v' f (f.at_.key "with")) := by
  have hshape := hv.shape (by decide)
  cases v with
  | obj block =>
    obtain ⟨block', rfl⟩ := hshape
    rw [Value.obj.sizeOf_spec] at hsize
    obtain hblock | ⟨hrole, -⟩ := hv.fields_or_exchanged (by decide)
    · rw [applyWith, applyWith]
      exact matches_withBlock h hbelow (by omega) hblock (h.visited hvisit .withBlock) hst
    · cases hrole
  | arr blocks =>
    obtain ⟨blocks', rfl, hblocks⟩ := hshape
    rw [Value.arr.sizeOf_spec] at hsize
    rw [applyWith, applyWith]
    exact matches_withBlocks h hbelow (by omega) hblocks (h.visited hvisit .withBlocks) hst
  | _ =>
    dsimp only at hshape
    subst hshape
    rw [applyWith, applyWith]
    · exact (blind_throw _).matches hst
    all_goals rintro _ ⟨⟩

lemma matches_attribute (hsize : sizeOf v ≤ size) (hv : Twin Exchanged (attributeRole key) v v')
    (hvisit : Visited (.attributes e ((key, v) :: rest) f grid, st))
    (hst : st.Alike Exchanged st') :
    Matches Exchanged st st' (applyAttributes cfg g e [(key, v)] f grid)
      (applyAttributes cfg (instantiate cfg) e [(key, v')] f grid) := by
  rw [applyAttributes_single, applyAttributes_single]
  refine Matches.recover ?_ grid
  cases hwith : key == "with" with
  | true =>
    rw [beq_iff_eq] at hwith
    subst hwith
    refine Matches.bind ?_ fun _ _ _ _ halike => (blind_pure grid).matches halike
    exact matches_applyWith h hbelow hsize hv hvisit hst
  | false =>
    cases hmeta : metaKeys.contains key with
    | true => exact (blind_pure grid).matches hst
    | false =>
      obtain rfl := hv.eq_of_value (attributeRole_eq_value hwith hmeta)
      simp only [Bool.false_eq_true, if_false]
      split
      · exact (blind_gridTemplate cfg e f _ grid key v).matches hst
      · exact ((blind_applySetter cfg e f _ key v).bind fun _ => blind_pure grid).matches hst

lemma matches_applyAttributes {pairs pairs' : Fields} (hsize : sizeOf pairs ≤ size)
    (hpairs : TwinFields Exchanged attributeRole pairs pairs')
    (hvisit : Visited (.attributes e pairs f grid, st)) (hst : st.Alike Exchanged st') :
    Matches Exchanged st st' (applyAttributes cfg g e pairs f grid)
      (applyAttributes cfg (instantiate cfg) e pairs' f grid) := by
  induction pairs generalizing pairs' grid st st' with
  | nil =>
    cases hpairs
    rw [applyAttributes, applyAttributes]
    exact (blind_pure _).matches hst
  | cons pair rest ih =>
    cases hpairs with
    | @cons _ key v v' _ rest' hv hrest =>
      rw [List.cons.sizeOf_spec, Prod.mk.sizeOf_spec] at hsize
      rw [applyAttributes_cons, applyAttributes_cons cfg (instantiate cfg)]
      refine (matches_attribute h hbelow (by omega) hv hvisit hst).bind
        fun grid after after' hpair halike => ?_
      have hlift := ((carries_approachedBy h.approached).attributes e [(key, v)] f _
        fun _ _ _ => trivial).outcome hpair
      exact ih (by omega) hrest (h.visited hvisit (.nextAttribute hlift)) halike

lemma matches_processUnder {inner : Frame}
    (hsize : sizeOf node ≤ size) (hnode : TwinFields Exchanged attributeRole node node')
    (hvisit : ∀ nodes, node.get? "children" = some (.arr nodes) → e.isPointer →
      Visited (.children nodes 0 { inner with parent := e, at_ := f.at_.key "children" }, st))
    (hst : st.Alike Exchanged st') :
    Matches Exchanged st st' (processUnder cfg g (node.get? "children") e f inner)
      (processUnder cfg (instantiate cfg) (node'.get? "children") e f inner) := by
  cases hchildren : node.get? "children" with
  | none =>
    rw [hnode.get?_none hchildren]
    exact (blind_pure _).matches hst
  | some v =>
    obtain ⟨v', hchildren', hv⟩ := hnode.get?_some hchildren
    rw [hchildren']
    have hshape := hv.shape (by decide)
    cases v with
    | arr nodes =>
      obtain ⟨nodes', rfl, hnodes⟩ := hshape
      have hlt := Fields.sizeOf_lt_of_get?_arr hchildren
      unfold processUnder
      dsimp only
      split
      · rename_i hpointer
        exact matches_processChildren h hbelow (by omega) hnodes
          (hvisit nodes hchildren hpointer) hst
      · exact (blind_warn _ _).matches hst
    | obj fields =>
      obtain ⟨fields', rfl⟩ := hshape
      exact (blind_throw _).matches hst
    | _ =>
      dsimp only at hshape
      subst hshape
      exact (blind_throw _).matches hst

lemma matches_populate (hsize : sizeOf node ≤ size)
    (hnode : TwinFields Exchanged attributeRole node node')
    (hvisit : Visited (.inside node e f, st)) (hst : st.Alike Exchanged st') :
    Matches Exchanged st st' (populate cfg g node e f)
    (populate cfg (instantiate cfg) node' e f) := by
  rw [populate_eq, populate_eq, registerNode_congr (hnode.get?_eq (by decide))
    (hnode.get?_eq (by decide)) (hnode.get?_eq (by decide))]
  refine ((blind_registerNode e f node).matches hst).bind fun inner st₁ st₁' hregister h₁ => ?_
  refine (matches_applyAttributes h hbelow hsize hnode
    (h.visited hvisit (.attributes hregister)) h₁).bind fun grid st₂ st₂' hattributes h₂ => ?_
  refine ((blind_finishGrid e grid).matches h₂).bind fun _ st₃ st₃' hgrid h₃ => ?_
  have hlift := ((carries_approachedBy h.approached).attributes e node inner {}
    fun _ _ _ => trivial).outcome hattributes
  exact matches_processUnder h hbelow hsize hnode
    (fun nodes hnodes hpointer => h.visited hvisit
      (.children hregister hlift hgrid hnodes hpointer)) h₃

omit h in
lemma matches_processBody {values : Fields} (hsize : sizeOf node ≤ size)
    (hnode : TwinFields Exchanged NodeKind.context.role node node')
    (hvisit : ∀ body, node.get? "for" = some (.obj body) → Visited (.node (.obj body)
      { f with scope := f.scope.extend (some values), at_ := f.at_.key "for" }, st))
    (hst : st.Alike Exchanged st') :
    Matches Exchanged st st' (processBody cfg g (node.get? "for") values f)
      (processBody cfg (instantiate cfg) (node'.get? "for") values f) := by
  cases hbody : node.get? "for" with
  | none =>
    rw [hnode.get?_none hbody]
    exact (blind_throw _).matches hst
  | some v =>
    obtain ⟨v', hbody', hv⟩ := hnode.get?_some hbody
    rw [hbody']
    have hshape := hv.shape (by decide)
    cases v with
    | obj body =>
      obtain ⟨body', rfl⟩ := hshape
      have hlt := Fields.sizeOf_lt_of_get?_obj hbody
      exact hbelow.node (by omega) hv (hvisit body hbody) hst
    | arr items =>
      obtain ⟨items', rfl, -⟩ := hshape
      exact (blind_throw _).matches hst
    | _ =>
      dsimp only at hshape
      subst hshape
      exact (blind_throw _).matches hst

lemma matches_fields (hsize : sizeOf node ≤ size)
    (hfields : TwinFields Exchanged (kindOf node).role node node')
    (hvisit : Visited (.node (.obj node) f, st)) (hst : st.Alike Exchanged st') :
    Matches Exchanged st st' (processFields cfg g node f)
    (processFields cfg (instantiate cfg) node' f) := by
  have hsame : node'.get? "type" = node.get? "type" := hfields.get?_eq (NodeKind.role_type _)
  rw [processFields_eq, processFields_eq, textField_congr hsame]
  refine (decided_textField node "type" f.at_).matches_bind hst fun type htype => ?_
  rw [kindOf_of_textField htype] at hfields
  cases hk : NodeKind.ofType type with
  | component =>
    rw [hk] at hfields
    exact matches_defineComponent hfields hst f.at_
  | use =>
    rw [hk] at hfields
    exact matches_use htype hk (hfields.get?_eq (by decide)) (hfields.get?_eq (by decide)) hst
      fun hcall htwin halike => h.instances (h.visited hvisit hcall) htwin halike
  | context =>
    rw [hk] at hfields
    have hvalues : node'.get? "values" = node.get? "values" := hfields.get?_eq (by decide)
    dsimp only
    rw [objectField_congr hvalues]
    refine (decided_objectField node "values" f.at_).matches_bind hst fun values hvalues => ?_
    cases values with
    | none => exact (blind_throw _).matches hst
    | some values =>
      exact matches_processBody hbelow hsize hfields
        (fun body hbody => h.visited hvisit (.body htype hk hvalues hbody)) hst
  | style =>
    rw [hk] at hfields
    refine (blind_createStyle.matches hst).bind fun e after after' hcreate halike => ?_
    exact matches_populate h hbelow hsize hfields
      (h.visited hvisit (.style htype hk hcreate)) halike
  | widget type =>
    rw [hk] at hfields
    refine ((blind_createWidget cfg f type).matches hst).bind fun e after after' hcreate halike =>
      ?_
    exact matches_populate h hbelow hsize hfields
      (h.visited hvisit (.widget htype hk hcreate)) halike

lemma matches_processFields (hsize : sizeOf node ≤ size)
    (hnode : Twin Exchanged .node (.obj node) (.obj node'))
    (hvisit : Visited (.node (.obj node) f, st)) (hst : st.Alike Exchanged st') :
    Matches Exchanged st st' (processFields cfg g node f)
    (processFields cfg (instantiate cfg) node' f) := by
  obtain hfields | ⟨-, hexchanged⟩ := hnode.fields_or_exchanged (by decide)
  · exact matches_fields h hbelow hsize hfields hvisit hst
  · exact h.exchanged hvisit hexchanged hst (matches_fields h hbelow hsize (.refl _ _) hvisit hst)

end

/-- Nodes of all sizes are in lockstep: those of one size by the smaller ones inside them. -/
lemma Lockstep.below (h : Lockstep cfg Exchanged Visited g) (size : Nat) :
    LockstepBelow cfg Exchanged Visited g size := by
  induction size with
  | zero =>
      exact ⟨fun hsize => absurd hsize (Nat.not_lt_zero _), fun hsize => absurd hsize
        (Nat.not_lt_zero _)⟩
  | succ size ih =>
    exact ⟨fun hsize => matches_processFields h ih (Nat.le_of_lt_succ hsize),
      fun hsize => matches_populate h ih (Nat.le_of_lt_succ hsize)⟩

end

/-! ## Runs of twins -/

/-- Whatever makes instances, if twins among the instances are in lockstep, so is everything. -/
def KeepsLockstep (cfg : Settings) (Exchanged : Fields → Fields → Prop)
    (Visited : Call × State → Prop) : Prop :=
  ∀ g : Fields → Frame → Run Unit,
    (∀ node f, (g node f).ApproachedBy fun _ => instantiate cfg node f) →
    (∀ {node node' : Fields} {f : Frame} {st st' : State}, Visited (.node (.obj node) f, st) →
      Twin Exchanged .node (.obj node) (.obj node') → st.Alike Exchanged st' →
      Matches Exchanged st st' (g node f) (instantiate cfg node' f)) →
    Lockstep cfg Exchanged Visited g

namespace KeepsLockstep

variable {cfg : Settings} {Visited : Call × State → Prop}

/-- By induction over the instances that end. -/
lemma matches_instantiate (h : KeepsLockstep cfg Exchanged Visited)
    (hvisit : Visited (.node (.obj node) f, st))
    (hnode : Twin Exchanged .node (.obj node) (.obj node'))
    (hst : st.Alike Exchanged st') :
    Matches Exchanged st st' (instantiate cfg node f) (instantiate cfg node' f) := by
  intro r after hr
  refine (instantiate_induction cfg (motive := fun node f st r =>
    (instantiate cfg node f).outcome st = some r ∧ ∀ node' st', Visited (.node (.obj node) f, st) →
      Twin Exchanged .node (.obj node) (.obj node') → st.Alike Exchanged st' →
      ∃ after', (instantiate cfg node' f).outcome st' = some (r.1, after') ∧
        r.2.Alike Exchanged after')
    ?_ hr).2 node' st' hvisit hnode hst
  intro g hg node f st r hr
  have hlock : Lockstep cfg Exchanged Visited g :=
    h g (fun node f st r hr => ⟨0, fun _ _ => (hg node f st r hr).1⟩)
      fun hvisit hnode hst r after hr => (hg _ _ _ _ hr).2 _ _ hvisit hnode hst
  constructor
  · rw [outcome_instantiate]
    exact outcome_processFields_mono (fun node f st r hr => (hg node f st r hr).1) hr
  · intro node' st' hvisit hnode hst
    obtain ⟨after', hr', halike⟩ :=
      matches_processFields hlock (hlock.below _) le_rfl hnode hvisit hst _ _ hr
    exact ⟨after', by rw [outcome_instantiate]; exact hr', halike⟩

lemma matches_run (h : KeepsLockstep cfg Exchanged Visited) {doc doc' : Value}
    (hdoc : Twin Exchanged (.ofDocument doc) doc doc') (hvisit : Visited (.ofDocument cfg doc, st))
    (hst : st.Alike Exchanged st') : Matches Exchanged st st' (run cfg doc) (run cfg doc') := by
  have hlock : Lockstep cfg Exchanged Visited (instantiate cfg) :=
    h _ (fun node f => .const _) h.matches_instantiate
  have hshape := hdoc.shape (by cases doc <;> nofun)
  cases doc with
  | obj node =>
    obtain ⟨node', rfl⟩ := hshape
    exact (matches_processFields hlock (hlock.below _) le_rfl hdoc hvisit hst).recover ()
  | arr nodes =>
    obtain ⟨nodes', rfl, hnodes⟩ := hshape
    exact matches_processChildren hlock (hlock.below _) le_rfl hnodes hvisit hst
  | _ =>
    dsimp only at hshape
    subst hshape
    exact (blind_throw _).matches hst

end KeepsLockstep

/-! ## Uses -/

lemma textField_of_getString? {text : Bytes} (h : node.getString? key = some text)
    (at_ : Pointer) : textField node key at_ = pure (some text) := by
  unfold Fields.getString? at h
  unfold textField
  split at h
  · rename_i hget
    cases h
    rw [hget]
  · cases h

lemma fields_of_use (huse : use? node = some name) (at_ : Pointer) :
    (∃ type, textField node "type" at_ = pure type ∧ NodeKind.ofType type = .use) ∧
      componentName node "use-view" at_ = pure name := by
  unfold use? at huse
  split at huse
  · rename_i hkind
    constructor
    · cases htype : node.getString? "type" with
      | none =>
        rw [htype] at hkind
        exact absurd hkind (by decide)
      | some type =>
          exact ⟨some type, textField_of_getString? htype at_, by rw [← htype]; exact hkind⟩
    · unfold componentName? at huse
      split at huse
      · rename_i hid
        cases huse
        rw [componentName, textField_of_getString? hid, pure_bind]
        rfl
      · cases huse
  · cases huse

/-- A use looks up its component, notes the keys that it ignores and makes an instance. -/
lemma outcome_use (huse : use? node = some name) {context : Option Fields}
    (hcontext : node.get? "context" = context.map .obj) (cfg : Settings)
    (g : Fields → Frame → Run Unit) (f : Frame)
    (st : State) :
    (processFields cfg g node f).outcome st =
      match st.components.lookup name with
      | none => some (.error (.problem (.undefinedComponent name) f.at_), st)
      | some root =>
        (g root { f with scope := f.scope.extend context }).outcome
          { st with log := ignoredNotes node f.at_ ++ st.log } := by
  obtain ⟨⟨type, htype, hkind⟩, hname⟩ := fields_of_use huse f.at_
  have hobject : objectField node "context" f.at_ = pure context := by
    unfold objectField
    rw [hcontext]
    cases context <;> rfl
  rw [processFields_eq, htype, pure_bind, hkind]
  simp only [useComponent, hname, hobject, pure_bind, outcome_bind, outcome_get]
  cases st.components.lookup name with
  | none => rfl
  | some root => rfl

/-! ## Exchanged uses -/

/-- Exchanged nodes come to the same wherever the traversal of the first document comes to them.  On
the first side there are uses of components.  On the other side there are uses of the same component
in the same context, or twins of what the component stands for when the use is reached. -/
structure Exchange (cfg : Settings) (Exchanged : Fields → Fields → Prop)
    (Visited : Call × State → Prop) : Prop where
  visited {a b : Call × State} : Visited a → Calls cfg a b → Visited b
  uses {node node' : Fields} : Exchanged node node' → ∃ name, use? node = some name ∧
    ((∀ key ∈ ["type", "id", "context"].map Bytes.ofString, node'.get? key = node.get? key) ∨
      node.get? "context" = none ∧ ∀ f st, Visited (.node (.obj node) f, st) →
        ∃ root, st.components.lookup name = some root ∧ Twin Exchanged .node (.obj root)
          (.obj node'))

lemma Exchange.keepsLockstep {cfg : Settings} {Visited : Call × State → Prop}
    (h : Exchange cfg Exchanged Visited) :
    KeepsLockstep cfg Exchanged Visited := fun g happroached hinstances => {
  visited := h.visited
  approached := happroached
  instances := hinstances
  exchanged := by
    intro node node' f st st' hvisit hexchanged hst _
    obtain ⟨name, huse, hcase⟩ := h.uses hexchanged
    obtain ⟨⟨type, htype, hkind⟩, hname⟩ := fields_of_use huse f.at_
    obtain hsame | ⟨hcontext, hbound⟩ := hcase
    · rw [processFields_eq, processFields_eq, textField_congr (hsame _ (by decide)), htype,
        pure_bind, pure_bind, hkind]
      exact matches_use (g := g) htype hkind (hsame _ (by decide)) (hsame _ (by decide)) hst
        fun hcall htwin halike => hinstances (h.visited hvisit hcall) htwin halike
    · obtain ⟨root, hroot, htwin⟩ := hbound f st hvisit
      have hobject : objectField node "context" f.at_ = pure none := by
        unfold objectField
        rw [hcontext]
      have hinside :
          Visited (.node (.obj root) f, { st with log := ignoredNotes node f.at_ ++ st.log }) :=
        h.visited hvisit (.use htype hkind hname hobject hroot)
      -- The notes about ignored keys are on one side only.
      have halike : { st with log := ignoredNotes node f.at_ ++ st.log }.Alike Exchanged st' :=
        hst.note (level_ignoredNotes node f.at_) (fun r (hr : r ∈ []) => by cases hr)
      intro r after hr
      have hnone : node.get? "context" = none.map Value.obj := hcontext
      rw [outcome_use huse hnone, hroot] at hr
      obtain ⟨after', hr', halike'⟩ := hinstances hinside htwin halike r after hr
      rw [outcome_instantiate] at hr'
      exact ⟨after', hr', halike'⟩ }

end UiCodegen.Transpile
