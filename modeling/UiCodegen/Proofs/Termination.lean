import UiCodegen.Proofs.FailureAtomicity
import UiCodegen.Proofs.NodeSteps

/-!
# When a run ends

A run can fail to end for one reason only: instances of components inside each other without bound.
The first part of this file says so exactly.  `instancesWithin` makes instances up to a depth and
gives up below it; a run ends if and only if it ends within some depth, and then in the same way
(`run_outcome_iff`).  What a run ends with is success or a violation of the schema, since problems
are reported.

The second part gives a condition on the document alone.  If components can be ranked so that each
of them uses components of smaller rank only, every run ends (`runEnds_of_ranked`).  The induction
is on the rank, and inside it on the document; the components that are defined while the document is
processed are ranked in every state on the way.

Without such a condition a run need not end: a component whose node uses the component itself has no
instance that ends (`outcome_instantiate_selfUse`).
-/

namespace UiCodegen.Transpile

variable (cfg : Settings)

open Run State

variable {f : Frame} {st : State} {node : Fields} {r : Except Fault Unit × State} {key name : Bytes}
  {st' : State} {doc : Value} {fields root : Fields} {at_ : Pointer} {rank : Bytes → Nat}

/-! ## Instances up to a depth -/

/-- Instances nested at most `depth` deep; an instance below that has no outcome. -/
def instancesWithin (cfg : Settings) : (depth : Nat) → Fields → Frame → Run Unit
  | 0, _, _ => ExceptT.mk fun _ => none
  | depth + 1, node, f => processFields cfg (instancesWithin cfg depth) node f

lemma instancesWithin_succ (depth : Nat)
    (hr : (instancesWithin cfg depth node f).outcome st = some r) :
    (instancesWithin cfg (depth + 1) node f).outcome st = some r := by
  induction depth generalizing node f st r with
  | zero => cases hr
  | succ depth ih => exact outcome_processFields_mono (fun _ _ _ _ => ih) hr

lemma instancesWithin_mono {depth depth' : Nat} (hle : depth ≤ depth')
    (hr : (instancesWithin cfg depth node f).outcome st = some r) :
    (instancesWithin cfg depth' node f).outcome st = some r := by
  induction hle with
  | refl => exact hr
  | step _ ih => exact instancesWithin_succ cfg _ ih

/-- An instance ends exactly if it ends within some depth. -/
lemma outcome_instantiate_iff : (instantiate cfg node f).outcome st = some r ↔
      ∃ depth, (instancesWithin cfg depth node f).outcome st = some r := by
  constructor
  · intro hr
    refine instantiate_induction cfg
      (motive := fun node f st r => ∃ depth, (instancesWithin cfg depth node f).outcome st = some r)
        ?_ hr
    intro g hg node f st r hr
    have happroach : ∀ node f, (g node f).ApproachedBy fun m => instancesWithin cfg m node f := by
      intro node f st r hr
      obtain ⟨n, hn⟩ := hg node f st r hr
      exact ⟨n, fun m hm => instancesWithin_mono cfg hm hn⟩
    obtain ⟨n, hn⟩ := (carries_approachedBy happroach).fields node f trivial st r hr
    exact ⟨n + 1, hn n le_rfl⟩
  · rintro ⟨depth, hr⟩
    induction depth generalizing node f st r with
    | zero => cases hr
    | succ depth ih =>
      rw [outcome_instantiate]
      exact outcome_processFields_mono (fun _ _ _ _ => ih) hr

lemma approachedBy_runWith {g : Fields → Frame → Run Unit} {gs : Nat → Fields → Frame → Run Unit}
    (h : ∀ node f, (g node f).ApproachedBy fun m => gs m node f)
    (doc : Value) : (runWith cfg g doc).ApproachedBy fun m => runWith cfg (gs m) doc := by
  cases doc with
  | obj node => exact .recover () ((carries_approachedBy h).fields node _ trivial)
  | arr nodes => exact (carries_approachedBy h).children nodes 0 _ fun _ _ => trivial
  | _ => exact .const _

/-- A run ends exactly if it ends within some depth of instances. -/
lemma run_outcome_iff (doc : Value) : (run cfg doc).outcome st = some r ↔
      ∃ depth, (runWith cfg (instancesWithin cfg depth) doc).outcome st = some r := by
  constructor
  · intro hr
    have happroach : ∀ node f,
        (instantiate cfg node f).ApproachedBy fun m => instancesWithin cfg m node f := by
      intro node f st r hr
      obtain ⟨n, hn⟩ := (outcome_instantiate_iff cfg).1 hr
      exact ⟨n, fun m hm => instancesWithin_mono cfg hm hn⟩
    obtain ⟨n, hn⟩ := approachedBy_runWith cfg happroach doc st r hr
    exact ⟨n, hn n le_rfl⟩
  · rintro ⟨depth, hr⟩
    have happroach : ∀ node f,
        (instancesWithin cfg depth node f).ApproachedBy fun _ => instantiate cfg node f :=
      fun node f st r hr => ⟨0, fun _ _ => (outcome_instantiate_iff cfg).2 ⟨depth, hr⟩⟩
    obtain ⟨n, hn⟩ := approachedBy_runWith cfg happroach doc st r hr
    exact hn n le_rfl

/-! ## How a run ends -/

/-- The run of a document comes to an end, with success or with a violation of the schema. -/
def RunEnds (doc : Value) (st : State) : Prop :=
  ∃ r st', (run cfg doc).outcome st = some (r, st') ∧
    (r = .ok () ∨ ∃ v at_, r = .error (.violation v at_))

/-- Problems do not end a run. -/
lemma unfailing_run (doc : Value) : (run cfg doc).Unfailing := by
  cases doc with
  | obj node => exact unfailing_recover _ _
  | arr nodes => exact unfailing_processChildren cfg _ nodes 0 _
  | _ => exact unfailing_violate _ _

lemma runEnds_of_outcome {cfg : Settings} {r : Except Fault Unit}
    (hr : (run cfg doc).outcome st = some (r, st')) : RunEnds cfg doc st := by
  refine ⟨r, st', hr, ?_⟩
  match r with
  | .ok () => exact .inl rfl
  | .error (.violation v at_) => exact .inr ⟨v, at_, rfl⟩
  | .error (.problem p at_) => exact absurd rfl (unfailing_run cfg doc st _ st' hr p at_)

/-! ## Components that can be ranked -/

mutual

def objectsIn : Value → List Fields
  | .arr items => objectsInItems items
  | .obj fields => fields :: objectsInFields fields
  | _ => []

def objectsInItems : List Value → List Fields
  | [] => []
  | v :: rest => objectsIn v ++ objectsInItems rest

def objectsInFields : List (Bytes × Value) → List Fields
  | [] => []
  | (_, v) :: rest => objectsIn v ++ objectsInFields rest

end

lemma objectsIn_subset_of_mem {v : Value} (h : (key, v) ∈ fields) :
    objectsIn v ⊆ objectsInFields fields := by
  induction fields with
  | nil => cases h
  | cons pair rest ih =>
    obtain ⟨k, w⟩ := pair
    rw [objectsInFields]
    rcases List.mem_cons.1 h with heq | hmem
    · obtain ⟨-, rfl⟩ := Prod.mk.inj heq
      exact List.subset_append_left _ _
    · exact List.Subset.trans (ih hmem) (List.subset_append_right _ _)

lemma objectsIn_subset_items {v : Value} {items : List Value} (h : v ∈ items) :
    objectsIn v ⊆ objectsInItems items := by
  induction items with
  | nil => cases h
  | cons w rest ih =>
    rw [objectsInItems]
    rcases List.mem_cons.1 h with rfl | hmem
    · exact List.subset_append_left _ _
    · exact List.Subset.trans (ih hmem) (List.subset_append_right _ _)

lemma objectsIn_subset_of_get? {v : Value} (h : fields.get? key = some v) :
    objectsIn v ⊆ objectsInFields fields := by
  obtain ⟨k, hmem⟩ := Fields.mem_of_get? h
  exact objectsIn_subset_of_mem hmem

mutual

lemma objectsInFields_subset_objectsIn {node : Fields} :
    ∀ v, node ∈ objectsIn v → objectsInFields node ⊆ objectsIn v
  | .null, h | .bool _, h | .num _, h | .str _, h => by simp [objectsIn] at h
  | .arr items, h => by
    rw [objectsIn] at h ⊢
    exact objectsInFields_subset_items items h
  | .obj fields, h => by
    rw [objectsIn] at h ⊢
    rcases List.mem_cons.1 h with rfl | hmem
    · exact List.subset_cons_self _ _
    · exact List.Subset.trans (objectsInFields_subset_fields fields hmem)
        (List.subset_cons_self _ _)

lemma objectsInFields_subset_items {node : Fields} :
    ∀ items, node ∈ objectsInItems items → objectsInFields node ⊆ objectsInItems items
  | [], h => by simp [objectsInItems] at h
  | v :: rest, h => by
    rw [objectsInItems] at h ⊢
    rcases List.mem_append.1 h with hfirst | hrest
    · exact List.subset_append_of_subset_left _ (objectsInFields_subset_objectsIn v hfirst)
    · exact List.subset_append_of_subset_right _ (objectsInFields_subset_items rest hrest)

lemma objectsInFields_subset_fields {node : Fields} :
    ∀ fields, node ∈ objectsInFields fields → objectsInFields node ⊆ objectsInFields fields
  | [], h => by simp [objectsInFields] at h
  | (_, v) :: rest, h => by
    rw [objectsInFields] at h ⊢
    rcases List.mem_append.1 h with hfirst | hrest
    · exact List.subset_append_of_subset_left _ (objectsInFields_subset_objectsIn v hfirst)
    · exact List.subset_append_of_subset_right _ (objectsInFields_subset_fields rest hrest)

end

def componentName? (node : Fields) : Option Bytes :=
  match node.getString? "id" with
  | some (64 :: b :: rest) => some (b :: rest)
  | _ => none

def use? (node : Fields) : Option Bytes :=
  match NodeKind.ofType (node.getString? "type") with
  | .use => componentName? node
  | _ => none

/-- The component that a node defines, with the node it stands for. -/
def definition? (node : Fields) : Option (Bytes × Fields) :=
  match NodeKind.ofType (node.getString? "type"), componentName? node, node.get? "root" with
  | .component, some name, some (.obj root) => some (name, root)
  | _, _, _ => none

/-- Wherever a component is defined in a document, its node uses components of smaller rank only. -/
def Ranked (rank : Bytes → Nat) (doc : Value) : Prop :=
  ∀ node ∈ objectsIn doc, ∀ definition ∈ definition? node,
    ∀ inner ∈ objectsIn (.obj definition.2), ∀ used ∈ use? inner, rank used < rank definition.1

instance (rank : Bytes → Nat) (doc : Value) : Decidable (Ranked rank doc) :=
  inferInstanceAs (Decidable (∀ node ∈ objectsIn doc, ∀ definition ∈ definition? node,
    ∀ inner ∈ objectsIn (.obj definition.2), ∀ used ∈ use? inner, rank used < rank definition.1))

def State.DefinedIn (doc : Value) (st : State) : Prop :=
  ∀ name root, st.components.lookup name = some root →
    ∃ node ∈ objectsIn doc, definition? node = some (name, root)

/-! ## Ranked components have instances that end -/

namespace Run

variable {α β : Type} {P : State → Prop}

/-- The steps end in every state with the property `P`, and keep it. -/
def Preserves (P : State → Prop) (x : Run α) : Prop :=
  ∀ st, P st → ∃ r st', x.outcome st = some (r, st') ∧ P st'

lemma preserves_throw (e : Fault) : (throw e : Run α).Preserves P :=
  fun st hst => ⟨.error e, st, rfl, hst⟩

lemma preserves_pure (a : α) : (pure a : Run α).Preserves P := fun st hst => ⟨.ok a, st, rfl, hst⟩

/-- What follows a step may rely on the step having yielded its result. -/
lemma Preserves.bind {x : Run α} {k : α → Run β} (hx : x.Preserves P)
    (hk : ∀ st a st', P st → x.outcome st = some (.ok a, st') → (k a).Preserves P) :
    (x >>= k).Preserves P := by
  intro st hst
  obtain ⟨r, st₁, hr, hst₁⟩ := hx st hst
  cases r with
  | error e => exact ⟨.error e, st₁, by rw [outcome_bind, hr], hst₁⟩
  | ok a =>
    obtain ⟨r, st₂, hr', hst₂⟩ := hk st a st₁ hst hr st₁ hst₁
    exact ⟨r, st₂, by simp only [outcome_bind, hr, hr'], hst₂⟩

end Run

section

variable {α : Type} {doc : Value}

lemma Run.Moves.preserves {x : Run α} (hx : x.Settles) : x.Preserves (DefinedIn doc) := by
  intro st hst
  obtain ⟨r, st', hr, hsettled⟩ := hx st
  refine ⟨r, st', hr, fun name root hlookup => hst name root ?_⟩
  rwa [hsettled.components] at hlookup

lemma preserves_recover {x : Run α} (otherwise : α) (hx : x.Preserves (DefinedIn doc)) :
    (recover otherwise x).Preserves (DefinedIn doc) := by
  intro st hst
  obtain ⟨r, st', hr, hst'⟩ := hx st hst
  match r with
  | .ok a => exact ⟨.ok a, st', by rw [outcome_recover, hr], hst'⟩
  | .error (.violation v at_) =>
      exact ⟨.error (.violation v at_), st', by rw [outcome_recover, hr], hst'⟩
  | .error (.problem p at_) =>
      exact ⟨.ok otherwise, st'.reported p at_, by rw [outcome_recover, hr], hst'⟩

end

lemma textField_ok {node : Fields} {st : State} {text : Option Bytes}
    (h : (textField node key at_).outcome st = some (.ok text, st')) :
    text = node.getString? key := by
  unfold textField at h
  unfold Fields.getString?
  split at h <;> rename_i hget <;> rw [hget]
  · cases h
    rfl
  · cases h
    rfl
  · cases h

lemma objectField_ok {node : Fields} {st : State}
    (h : (objectField node key at_).outcome st = some (.ok (some fields), st')) :
    node.get? key = some (.obj fields) := by
  unfold objectField at h
  split at h
  · cases h
  · rename_i hget
    cases h
    exact hget
  · cases h

lemma componentName_ok {node : Fields} {kind : Bytes} {st : State}
    (h : (componentName node kind at_).outcome st = some (.ok name, st')) :
    componentName? node = some name := by
  unfold componentName at h
  obtain ⟨id, st₁, hid, hname⟩ | ⟨e, -, he⟩ := outcome_bind_eq_some.1 h
  · have hid := textField_ok hid
    unfold componentName?
    rw [← hid]
    split at hname
    · cases hname
      rfl
    · cases hname
  · cases he

/-- The objects at hand are objects of the document, and the components they use are allowed. -/
def Within (doc : Value) (allowed : Bytes → Prop) (objects : List Fields) : Prop :=
  ∀ node ∈ objects, node ∈ objectsIn doc ∧ ∀ used ∈ use? node, allowed used

lemma Within.subset {allowed : Bytes → Prop} {objects objects' : List Fields}
    (h : Within doc allowed objects) (hsub : objects' ⊆ objects) : Within doc allowed objects' :=
  fun node hnode => h node (hsub hnode)

section

variable {cfg : Settings} {doc : Value} {allowed : Bytes → Prop} {g : Fields → Frame → Run Unit}

lemma preserves_defineComponent {node : Fields} (at_ : Pointer) (hnode : node ∈ objectsIn doc)
    (hkind : NodeKind.ofType (node.getString? "type") = .component) :
    (defineComponent node at_).Preserves (DefinedIn doc) := by
  unfold defineComponent
  refine (decided_componentName node _ at_).moves.preserves.bind fun _ name _ _ hname => ?_
  refine (decided_objectField node _ at_).moves.preserves.bind fun _ root _ _ hroot => ?_
  cases root with
  | none => exact preserves_throw _
  | some root =>
    have hdefinition : definition? node = some (name, root) := by
      simp only [definition?, hkind, componentName_ok hname, objectField_ok hroot]
    have hbind : ∀ st, DefinedIn doc st →
        DefinedIn doc { st with components := (name, root) :: st.components } := by
      intro st hst name' root' hlookup
      rw [List.lookup_cons] at hlookup
      split at hlookup
      · rename_i heq
        cases hlookup
        rw [eq_of_beq heq]
        exact ⟨node, hnode, hdefinition⟩
      · exact hst name' root' hlookup
    refine Preserves.bind (Moves.preserves moves_get) fun _ st _ _ _ => ?_
    have hmodify : (modify fun st => { st with components := (name, root) :: st.components } :
        Run Unit).Preserves (DefinedIn doc) :=
      fun st hst => ⟨.ok (), _, rfl, hbind st hst⟩
    split
    · exact (formats_warn _ _).keeps.settles.preserves.bind fun _ _ _ _ _ => hmodify
    · exact hmodify

def InstancesEnd (doc : Value) (allowed : Bytes → Prop) (g : Fields → Frame → Run Unit) : Prop :=
  ∀ node ∈ objectsIn doc, ∀ name root, definition? node = some (name, root) → allowed name →
    ∀ f, (g root f).Preserves (DefinedIn doc)

section

variable (hg : InstancesEnd doc allowed g)
include hg

lemma preserves_useComponent {node : Fields} (f : Frame)
    (hallowed : ∀ used ∈ use? node, allowed used)
    (hkind : NodeKind.ofType (node.getString? "type") = .use) :
    (useComponent g node f).Preserves (DefinedIn doc) := by
  unfold useComponent
  refine (decided_componentName node _ f.at_).moves.preserves.bind fun _ name _ _ hname => ?_
  refine (decided_objectField node _ f.at_).moves.preserves.bind fun _ context _ _ _ => ?_
  refine Preserves.bind (Moves.preserves moves_get) fun st st' _ hst hget => ?_
  cases hget
  cases hlookup : st.components.lookup name with
  | none => exact preserves_throw _
  | some root =>
    obtain ⟨definer, hdefiner, hdefinition⟩ := hst name root hlookup
    have hname : allowed name := hallowed name (by simp [use?, hkind, componentName_ok hname])
    refine Preserves.bind (Moves.preserves (moves_modify ?_)) fun _ _ _ _ _ =>
      hg definer hdefiner name root hdefinition hname _
    exact fun _ => ⟨rfl, List.suffix_refl _, List.suffix_refl _⟩

lemma carries_preserves : Carries cfg g (fun _ => g) (fun v => Within doc allowed (objectsIn v))
    fun x _ => x.Preserves (DefinedIn doc) where
  field hv hmem :=
    hv.subset (List.Subset.trans (objectsIn_subset_of_mem hmem) (List.subset_cons_self _ _))
  item hv hmem := hv.subset (objectsIn_subset_items hmem)
  step hx := hx.settles.preserves
  bind hx hk := hx.bind fun st a st' _ hr => hk a ⟨st, st', hr⟩
  recover otherwise hx := preserves_recover otherwise hx
  component f _ hv := fun ⟨_, _, htype⟩ hkind =>
    preserves_defineComponent f.at_ (hv _ (.head _)).1 (textField_ok htype ▸ hkind)
  use f _ hv := fun ⟨_, _, htype⟩ hkind =>
    preserves_useComponent hg f (hv _ (.head _)).2 (textField_ok htype ▸ hkind)

lemma preserves_runWith (v : Value) (hv : Within doc allowed (objectsIn v)) :
    (runWith cfg g v).Preserves (DefinedIn doc) := by
  unfold runWith
  cases v with
  | obj node => exact preserves_recover () ((carries_preserves hg).fields node _ hv)
  | arr nodes =>
    refine (carries_preserves hg).children nodes 0 _ fun _ hmem => ?_
    exact hv.subset (objectsIn_subset_items hmem)
  | _ => exact preserves_throw _

end

lemma objectsIn_subset_of_definition {node : Fields}
    (hnode : node ∈ objectsIn doc) (h : definition? node = some (name, root)) :
    objectsIn (.obj root) ⊆ objectsIn doc := by
  unfold definition? at h
  split at h
  · rename_i hroot
    cases h
    exact List.Subset.trans (objectsIn_subset_of_get? hroot)
      (objectsInFields_subset_objectsIn doc hnode)
  · cases h

/-- The induction is on a bound of the ranks of the components whose instances end. -/
lemma instancesEnd_of_ranked (cfg : Settings) (hrank : Ranked rank doc) (bound : Nat) :
    InstancesEnd doc (fun name => rank name < bound) (instantiate cfg) := by
  induction bound with
  | zero => exact fun _ _ _ _ _ hlt => absurd hlt (Nat.not_lt_zero _)
  | succ bound ih =>
    intro node hnode name root hdefinition hlt f st hst
    have hroot : Within doc (fun used => rank used < bound) (objectsIn (.obj root)) := by
      intro inner hinner
      refine ⟨objectsIn_subset_of_definition hnode hdefinition hinner, fun used hused => ?_⟩
      have hused : rank used < rank name := hrank node hnode _ hdefinition inner hinner used hused
      omega
    rw [outcome_instantiate]
    exact (carries_preserves ih).fields root f hroot st hst

/-- If the components of a document can be ranked, its run ends. -/
lemma runEnds_of_ranked (cfg : Settings) (hrank : Ranked rank doc) {st : State}
    (hst : DefinedIn doc st) : RunEnds cfg doc st := by
  have hg : InstancesEnd doc (fun _ => True) (instantiate cfg) :=
    fun node hnode name root hdefinition _ =>
      instancesEnd_of_ranked cfg hrank (rank name + 1) node hnode name root hdefinition
        (Nat.lt_succ_self _)
  have hdoc : Within doc (fun _ => True) (objectsIn doc) :=
    fun _ hnode => ⟨hnode, fun _ _ => trivial⟩
  have hrun : (run cfg doc).Preserves (DefinedIn doc) := preserves_runWith hg doc hdoc
  obtain ⟨r, st', hr, -⟩ := hrun st hst
  exact runEnds_of_outcome hr

end

/-! ## Which runs end -/

/-- A run ends, with success or a violation, exactly if the instances of components inside each
other are bounded; in particular it does if the components of the document can be ranked. -/
theorem run_ends_iff_nesting_bounded (cfg : Settings) (doc : Value) (st : State) :
    (RunEnds cfg doc st ↔
      ∃ depth, (runWith cfg (instancesWithin cfg depth) doc).outcome st ≠ none) ∧
    ∀ rank, Ranked rank doc → DefinedIn doc st → RunEnds cfg doc st := by
  refine ⟨⟨?_, ?_⟩, fun rank hrank hst => runEnds_of_ranked cfg hrank hst⟩
  · rintro ⟨r, st', hr, -⟩
    obtain ⟨depth, hdepth⟩ := (run_outcome_iff cfg doc).1 hr
    exact ⟨depth, by simp [hdepth]⟩
  · rintro ⟨depth, hdepth⟩
    obtain ⟨⟨r, st'⟩, hr⟩ := Option.ne_none_iff_exists'.1 hdepth
    exact runEnds_of_outcome ((run_outcome_iff cfg doc).2 ⟨depth, hr⟩)

/-- Two components, of which the second uses the first, and a use of the second. -/
def nestedUse : Value :=
  .arr [.obj [("type", .str "component"), ("id", .str "@a"),
    ("root", .obj [("type", .str "style")])],
    .obj [("type", .str "component"), ("id", .str "@b"), ("root", .obj (useOf "a"))],
    .obj (useOf "b")]

theorem nestedUse_run_ends :
    Ranked (fun name => if name = "b" then 1 else 0) nestedUse ∧ RunEnds bareSettings nestedUse
    {} := by
  have hrank : Ranked (fun name => if name = "b" then 1 else 0) nestedUse := by
    decide
  exact ⟨hrank, (run_ends_iff_nesting_bounded bareSettings nestedUse {}).2 _ hrank (by intro; simp)⟩

/-- The use of a component makes an instance of what the state holds for it. -/
lemma outcome_useOf (g : Fields → Frame → Run Unit)
    (hname : name ≠ []) (f : Frame) {st : State} (hlookup : st.components.lookup name = some root) :
    (processFields cfg g (useOf name) f).outcome st = (g root f).outcome st := by
  obtain ⟨b, rest, rfl⟩ := List.exists_cons_of_ne_nil hname
  have htype : textField (useOf (b :: rest)) "type" f.at_ =
      pure (some (Bytes.ofString "use-view")) := by
    have hget : (useOf (b :: rest)).get? "type" = some (.str "use-view") := by cbv
    simp only [textField, hget]
  have hid : componentName (useOf (b :: rest)) "use-view" f.at_ = pure (b :: rest) := by
    have hget : (useOf (b :: rest)).get? "id" = some (.str (64 :: b :: rest)) := by cbv
    simp only [componentName, textField, hget, pure_bind]
  have hcontext : objectField (useOf (b :: rest)) "context" f.at_ = pure none := by
    have hget : (useOf (b :: rest)).get? "context" = none := by cbv
    simp only [objectField, hget]
  have hkeys : (useOf (b :: rest)).keys.filter
      (fun key : Bytes => key != "type" && key != "id" && key != "context") = [] := by
    cbv
  have hkind : NodeKind.ofType (some "use-view") = .use := by decide
  unfold processFields
  simp only [htype, pure_bind, hkind, useComponent, hid, hcontext, outcome_bind,
    outcome_get, hlookup, noteIgnored, hkeys, outcome_modify]
  rfl

/-- A component whose node is a use of the component itself has no instance that ends. -/
lemma outcome_instantiate_selfUse (hname : name ≠ []) (f : Frame)
    {st : State} (hlookup : st.components.lookup name = some (useOf name)) :
    (instantiate cfg (useOf name) f).outcome st = none := by
  rw [Option.eq_none_iff_forall_ne_some]
  intro r hr
  refine instantiate_induction cfg (motive := fun node _ st _ =>
    node = useOf name → st.components.lookup name = some (useOf name) → False) ?_ hr rfl hlookup
  rintro g hg _ f st r hr rfl hlookup
  rw [outcome_useOf cfg g hname f hlookup] at hr
  exact hg _ _ _ _ hr rfl hlookup

/-- The component `a` uses itself, and then it is used. -/
def selfUse : Value :=
  .arr [.obj [("type", .str "component"), ("id", .str "@a"), ("root", .obj (useOf "a"))],
    .obj (useOf "a")]

theorem selfUse_run_has_no_end : ¬ RunEnds bareSettings selfUse {} := by
  have hdefine : ∀ f, (processNode bareSettings (instantiate bareSettings)
      (.obj [("type", .str "component"), ("id", .str "@a"), ("root", .obj (useOf "a"))]) f).outcome
        {} =
      some (.ok (), { components := [("a", useOf "a")] }) := by
    intro f
    cbv
  have huse :
      ∀ f, (processNode bareSettings (instantiate bareSettings) (.obj (useOf "a")) f).outcome
      { components := [("a", useOf "a")] } = none := by
    intro f
    rw [processNode, outcome_useOf _ _ (by decide) f rfl]
    exact outcome_instantiate_selfUse bareSettings (by decide) f rfl
  rintro ⟨r, st', hr, -⟩
  simp only [run, runWith, selfUse, processChildren, guarded, outcome_bind,
    outcome_recover, hdefine, huse] at hr
  cases hr

end UiCodegen.Transpile
