import UiCodegen.Api.Filter
import UiCodegen.Api.Signature
import UiCodegen.Proofs.Sizes

/-!
# Which functions are selected, and how they are grouped

The functions of an API fall into three parts: those whose names a filter rejects, those that it
allows but that documents cannot call, and those that are included.  Whether a function can be
called does not depend on the functions that were looked at before it, so each part is a filter of
the functions in their order.

Four properties together say what grouping by signature does.  No function is lost or added
(`groupBySignature_perm`), and, by `WellGrouped`, the functions of a group have its key, one of them
has its signature, and the keys of groups differ.
-/

namespace UiCodegen.Api

variable {ctype : Bytes} {s : Sizes} {f : FunctionInfo} {groups : List SignatureGroup}

/-! ## The three parts -/

namespace Index

variable (ix : Index)

def isRepresentable (f : FunctionInfo) : Bool := (answer (ix.unrepresentable? f)).isNone

variable {ix} {filter : Filter}

lemma selectFrom_honest (functions : List FunctionInfo) (selection : Selection)
    (hs : s.Honest ix []) :
    let r := (ix.selectFrom filter selection functions).run s
    r.1.included = selection.included.reverse ++
        functions.filter (fun f => filter.allows f.name && ix.isRepresentable f) ∧
      r.1.skipped.map Prod.fst = (selection.skipped.map Prod.fst).reverse ++
        functions.filter (fun f => filter.allows f.name && !ix.isRepresentable f) ∧
      r.2.Honest ix [] := by
  induction functions generalizing selection s with
  | nil =>
    refine ⟨(List.append_nil _).symm, ?_, hs⟩
    rw [List.filter_nil, List.append_nil]
    exact List.map_reverse
  | cons f rest ih =>
    by_cases hallows : filter.allows f.name
    · obtain ⟨hanswer, hhonest⟩ := historyFree_unrepresentable? f s hs
      rw [selectFrom, if_neg (by simpa using hallows), run_query_bind, hanswer]
      cases hobstacle : answer (ix.unrepresentable? f) with
      | some u =>
        simpa [hallows, isRepresentable, hobstacle] using
          ih { selection with skipped := (f, u.reason) :: selection.skipped } hhonest
      | none =>
        simpa [hallows, isRepresentable, hobstacle] using
          ih { selection with included := f :: selection.included } hhonest
    · rw [selectFrom, if_pos (by simpa using hallows)]
      simpa [hallows] using ih { selection with filtered := selection.filtered + 1 } hs

/-- What is included and what is skipped, in the order of the API. -/
lemma select_honest (hs : s.Honest ix []) : let r := (ix.select filter).run s
    r.1.included = ix.functions.filter (fun f => filter.allows f.name && ix.isRepresentable f) ∧
      r.1.skipped.map Prod.fst =
        ix.functions.filter (fun f => filter.allows f.name && !ix.isRepresentable f) ∧
      r.2.Honest ix [] :=
  selectFrom_honest ix.functions {} hs

/-! ## Parameters of functions that can be called -/

lemma isSmallStruct_of_structObstacle? {record : Option StructRecord}
    (h : answer (ix.structObstacle? ctype record) = none) :
    answer (ix.isSmallStruct ctype) = true := by
  unfold structObstacle? at h
  split at h
  · cases h
  obtain ⟨s, hs, h⟩ := (historyFree_sizeOf ctype).of_run_bind (honest_nil ix) h
  split at h
  · cases h
  split at h
  · cases h
  obtain ⟨s', -, h⟩ := (historyFree_isSmallStruct ctype).of_run_bind hs h
  split at h
  · assumption
  · cases h

/-- A parameter without an obstacle has a known type other than that of functions, and if that is a
record, it is small. -/
lemma typeObstacle?_param {chain : Option TypeNode}
    (h : answer (ix.typeObstacle? ctype chain false) = none) :
    (ix.describe ctype).cls ≠ .void ∧ (ix.describe ctype).cls ≠ .unknown ∧
      ((ix.describe ctype).cls = .struct → answer (ix.isSmallStruct ctype) = true) := by
  unfold typeObstacle? at h
  split at h
  · cases h
  dsimp only at h
  split at h
  · cases h
  split at h
  · cases h
  · cases h
  · cases h
  · exact ⟨by simp_all, by simp_all, fun _ => isSmallStruct_of_structObstacle? h⟩
  · exact ⟨by simp_all, by simp_all, by simp_all⟩

lemma typeObstacle?_of_isRepresentable (h : ix.isRepresentable f) {p : Param}
    (hp : p ∈ f.params) : answer (ix.typeObstacle? p.ctype p.chain false) = none := by
  have hparams : ∀ (params : List Param) (s : Sizes), s.Honest ix [] →
      ((ix.paramsObstacle? f.name params).run s).1 = none →
        ∀ p ∈ params, answer (ix.typeObstacle? p.ctype p.chain false) = none := by
    intro params
    induction params with
    | nil => simp
    | cons p rest ih =>
      intro s hs hnone
      unfold paramsObstacle? at hnone
      obtain ⟨s', hs', hnone⟩ :=
        (historyFree_typeObstacle? p.ctype p.chain false).of_run_bind hs hnone
      cases hobstacle : answer (ix.typeObstacle? p.ctype p.chain false) with
      | some obstacle => simp [hobstacle] at hnone
      | none =>
        rw [hobstacle] at hnone
        rintro p' (_ | ⟨_, hp'⟩)
        · exact hobstacle
        · exact ih s' hs' hnone p' hp'
  have hnone : answer (ix.unrepresentable? f) = none := by simpa [isRepresentable] using h
  unfold unrepresentable? at hnone
  split at hnone
  · cases hnone
  obtain ⟨s, hs, hnone⟩ :=
    (historyFree_typeObstacle? f.result f.resultChain true).of_run_bind (honest_nil ix) hnone
  cases hobstacle : answer (ix.typeObstacle? f.result f.resultChain true) with
  | some obstacle => simp [hobstacle] at hnone
  | none =>
    rw [hobstacle] at hnone
    exact hparams f.params s hs hnone p hp

end Index

/-! ## Names -/

lemma nodup_firstOfEachName {α : Type} (nameOf : α → Bytes) (xs : List α) :
    ((firstOfEachName nameOf xs).map nameOf).Nodup := by
  have hkept : ∀ (xs kept : List α), (kept.map nameOf).Nodup →
      ((xs.foldl (fun kept x => if kept.any fun y => nameOf y == nameOf x then kept else x :: kept)
        kept).map nameOf).Nodup := by
    intro xs
    induction xs with
    | nil => exact fun _ h => h
    | cons x rest ih =>
      intro kept hkept
      refine ih _ ?_
      dsimp only
      split
      · exact hkept
      · rename_i hnew
        rw [List.map_cons, List.nodup_cons]
        refine ⟨fun hmem => hnew ?_, hkept⟩
        obtain ⟨y, hy, heq⟩ := List.mem_map.1 hmem
        exact List.any_eq_true.2 ⟨y, hy, by simp [heq]⟩
  rw [firstOfEachName, List.map_reverse, List.nodup_reverse]
  exact hkept xs [] List.nodup_nil

lemma nodup_functions (d : Description) : ((Index.ofDescription d).functions.map (·.name)).Nodup :=
  nodup_firstOfEachName _ _

/-! ## Groups -/

def grouped (groups : List SignatureGroup) : List FunctionInfo := groups.flatMap (·.functions)

lemma grouped_addToGroups_perm (f : FunctionInfo) (groups : List SignatureGroup) :
    (grouped (addToGroups f groups)).Perm (f :: grouped groups) := by
  induction groups with
  | nil => exact .refl _
  | cons g rest ih =>
    unfold addToGroups
    split
    · simp [grouped]
    · simp only [grouped, List.flatMap_cons] at ih ⊢
      exact (ih.append_left g.functions).trans List.perm_middle

/-- What is true of groups that are built function by function. -/
structure WellGrouped (groups : List SignatureGroup) : Prop where
  key : ∀ g ∈ groups, ∀ f ∈ g.functions, f.signature.key = g.signature.key
  signature : ∀ g ∈ groups, ∃ f ∈ g.functions, f.signature = g.signature
  nodup : (groups.map (·.signature.key)).Nodup

lemma keys_addToGroups (f : FunctionInfo) (groups : List SignatureGroup) :
    (addToGroups f groups).map (·.signature.key) =
      if f.signature.key ∈ groups.map (·.signature.key) then groups.map (·.signature.key)
      else groups.map (·.signature.key) ++ [f.signature.key] := by
  induction groups with
  | nil => simp [addToGroups]
  | cons g rest ih =>
    unfold addToGroups
    by_cases heq : g.signature.key = f.signature.key
    · simp [heq]
    · simp only [beq_iff_eq, heq, if_false, List.map_cons, ih, List.mem_cons, Ne.symm heq, false_or]
      split <;> simp

/-- A group is as it was, or it is new, or it has got the function. -/
lemma mem_addToGroups {g : SignatureGroup} (h : g ∈ addToGroups f groups) :
      g ∈ groups ∨ g = ⟨f.signature, [f]⟩ ∨ ∃ old ∈ groups, old.signature.key = f.signature.key ∧
        g = { old with functions := old.functions ++ [f] } := by
  induction groups with
  | nil => exact .inr (.inl (List.mem_singleton.1 h))
  | cons old rest ih =>
    unfold addToGroups at h
    split at h
    · rename_i hkey
      rcases List.mem_cons.1 h with rfl | hrest
      · exact .inr (.inr ⟨old, by simp, by simpa using hkey, rfl⟩)
      · exact .inl (by simp [hrest])
    · rcases List.mem_cons.1 h with rfl | hrest
      · exact .inl (by simp)
      · obtain hmem | hnew | ⟨old', hold', hgrown⟩ := ih hrest
        · exact .inl (by simp [hmem])
        · exact .inr (.inl hnew)
        · exact .inr (.inr ⟨old', by simp [hold'], hgrown⟩)

lemma WellGrouped.addToGroups {groups : List SignatureGroup} (h : WellGrouped groups)
    (f : FunctionInfo) : WellGrouped (addToGroups f groups) where
  key g hg f' hf' := by
    obtain hmem | rfl | ⟨old, hold, hkey, rfl⟩ := mem_addToGroups hg
    · exact h.key g hmem f' hf'
    · rw [List.mem_singleton.1 hf']
    · rcases List.mem_append.1 hf' with hf' | hf'
      · exact h.key old hold f' hf'
      · rw [List.mem_singleton.1 hf', hkey]
  signature g hg := by
    obtain hmem | rfl | ⟨old, hold, hkey, rfl⟩ := mem_addToGroups hg
    · exact h.signature g hmem
    · exact ⟨f, by simp, rfl⟩
    · obtain ⟨f', hf', hsignature⟩ := h.signature old hold
      exact ⟨f', by simp [hf'], hsignature⟩
  nodup := by
    rw [keys_addToGroups]
    split
    · exact h.nodup
    · rename_i hnew
      exact List.Nodup.append h.nodup (List.nodup_singleton _) (List.disjoint_singleton.2 hnew)

lemma wellGrouped_groupBySignature (functions : List FunctionInfo) :
    WellGrouped (groupBySignature functions) := by
  induction functions using List.reverseRecOn with
  | nil =>
      exact ⟨by simp [groupBySignature], by simp [groupBySignature], by simp [groupBySignature]⟩
  | append_singleton functions f ih =>
    rw [groupBySignature, List.foldl_concat]
    exact ih.addToGroups f

lemma groupBySignature_perm (functions : List FunctionInfo) :
    (grouped (groupBySignature functions)).Perm functions := by
  induction functions using List.reverseRecOn with
  | nil => exact .refl _
  | append_singleton functions f ih =>
    rw [groupBySignature, List.foldl_concat]
    exact (grouped_addToGroups_perm f _).trans
      ((ih.cons f).trans (List.perm_append_singleton f _).symm)

/-- The functions of groups have the signatures of their groups exactly if keys tell signatures
apart. -/
lemma WellGrouped.signature_eq_iff (h : WellGrouped groups) :
    (∀ g ∈ groups, ∀ f ∈ g.functions, f.signature = g.signature) ↔
      ∀ f ∈ grouped groups, ∀ f' ∈ grouped groups, f.signature.key = f'.signature.key →
        f.signature = f'.signature := by
  constructor
  · intro hsignature f hf f' hf' hkey
    obtain ⟨g, hg, hfg⟩ := List.mem_flatMap.1 hf
    obtain ⟨g', hg', hfg'⟩ := List.mem_flatMap.1 hf'
    have hsame : g.signature.key = g'.signature.key := by
      rw [← h.key g hg f hfg, ← h.key g' hg' f' hfg', hkey]
    obtain rfl : g = g' := List.inj_on_of_nodup_map h.nodup hg hg' hsame
    rw [hsignature g hg f hfg, hsignature g hg f' hfg']
  · intro hkeys g hg f hf
    obtain ⟨f', hf', hsignature⟩ := h.signature g hg
    rw [← hsignature]
    refine hkeys f (List.mem_flatMap.2 ⟨g, hg, hf⟩) f' (List.mem_flatMap.2 ⟨g, hg, hf'⟩) ?_
    rw [h.key g hg f hf, hsignature]

lemma mem_args_groupBySignature {functions : List FunctionInfo} {c : Bytes}
    (h : c ∈ (groupBySignature functions).flatMap (·.signature.args)) :
    ∃ f ∈ functions, ∃ p ∈ f.params, p.ctype = c := by
  obtain ⟨g, hg, hc⟩ := List.mem_flatMap.1 h
  obtain ⟨f, hf, hsignature⟩ := (wellGrouped_groupBySignature functions).signature g hg
  refine ⟨f, (groupBySignature_perm functions).mem_iff.1 (List.mem_flatMap.2 ⟨g, hg, hf⟩), ?_⟩
  simpa [← hsignature, FunctionInfo.signature] using hc

end UiCodegen.Api
