import UiCodegen.Proofs.CanonicalTypes
import UiCodegen.Proofs.Selection

/-!
# Groups are the classes of equal signatures

Functions are grouped by the keys of their signatures, and a key is a text: the type returned, and
the types of the parameters with commas between them in parentheses.  Where no type is empty or
holds a comma or a parenthesis, the key can be read back (`Signature.IsPlain.key_inj`), so functions
share a group exactly if they share a signature.  The groups are then known outright
(`groupBySignature_eq`): one for each signature, in the order in which signatures first appear, and
in each the functions of that signature in the order of the list.
-/

namespace UiCodegen

namespace Bytes

lemma join_eq_intercalate (sep : Bytes) (pieces : List Bytes) :
    join sep pieces = sep.intercalate pieces := by
  induction pieces with
  | nil => rfl
  | cons piece pieces ih =>
    cases pieces with
    | nil => simp [join]
    | cons next pieces => rw [join_cons_cons, ih, List.intercalate_cons_cons, List.append_assoc]

/-- Pieces can be found again between separators that none of them holds.  The empty list is left
out, because an empty text is also that of one empty piece. -/
lemma join_inj {sep : UInt8} {pieces pieces' : List Bytes} (hsep : ∀ piece ∈ pieces, sep ∉ piece)
    (hsep' : ∀ piece ∈ pieces', sep ∉ piece) (hne : pieces ≠ []) (hne' : pieces' ≠ [])
    (h : join [sep] pieces = join [sep] pieces') : pieces = pieces' := by
  rw [join_eq_intercalate, join_eq_intercalate] at h
  calc
    pieces = List.splitOn sep ([sep].intercalate pieces) :=
      (List.splitOn_intercalate sep hsep hne).symm
    _ = List.splitOn sep ([sep].intercalate pieces') := by rw [h]
    _ = pieces' := List.splitOn_intercalate sep hsep' hne'

end Bytes

namespace Api

/-! ## Keys -/

namespace Signature

/-- A type text that is told apart from the signs of a key. -/
def IsPlainType (t : Bytes) : Prop := t ≠ [] ∧ 44 ∉ t ∧ 40 ∉ t ∧ 41 ∉ t

instance : DecidablePred IsPlainType :=
  fun t => inferInstanceAs (Decidable (t ≠ [] ∧ 44 ∉ t ∧ 40 ∉ t ∧ 41 ∉ t))

def IsPlain (s : Signature) : Prop := ∀ t ∈ s.result :: s.args, IsPlainType t

instance : DecidablePred IsPlain :=
  fun s => inferInstanceAs (Decidable (∀ t ∈ s.result :: s.args, IsPlainType t))

lemma key_eq (s : Signature) : s.key = s.result ++ 40 :: (Bytes.join [44] s.args ++ [41]) := by
  have hopen : Bytes.ofString "(" = [40] := by decide
  have hcomma : Bytes.ofString "," = [44] := by decide
  have hclose : Bytes.ofString ")" = [41] := by decide
  simp [key, hopen, hcomma, hclose]

lemma join_ne_nil {args : List Bytes} (hplain : ∀ t ∈ args, IsPlainType t) (hne : args ≠ []) :
    Bytes.join [44] args ≠ [] := by
  obtain ⟨t, rest, rfl⟩ := List.exists_cons_of_ne_nil hne
  have ht : t ≠ [] := (hplain t (by simp)).1
  simp [Bytes.join, ht]

lemma args_inj {args args' : List Bytes} (h : ∀ t ∈ args, IsPlainType t)
    (h' : ∀ t ∈ args', IsPlainType t)
    (hjoin : Bytes.join [44] args = Bytes.join [44] args') : args = args' := by
  by_cases hnil : args = []
  · subst hnil
    by_contra hne
    exact join_ne_nil h' (Ne.symm hne) hjoin.symm
  · by_cases hnil' : args' = []
    · subst hnil'
      exact absurd hjoin (join_ne_nil h hnil)
    · exact Bytes.join_inj (fun t ht => (h t ht).2.1) (fun t ht => (h' t ht).2.1) hnil hnil' hjoin

lemma IsPlain.key_inj {s s' : Signature} (hs : s.IsPlain) (hs' : s'.IsPlain) (h : s.key = s'.key) :
    s = s' := by
  have hresult : IsPlainType s.result := hs _ (by simp)
  have hresult' : IsPlainType s'.result := hs' _ (by simp)
  rw [key_eq, key_eq] at h
  -- The first parenthesis of a key stands behind the type returned.
  have hcut := Bytes.cut?_append hresult.2.2.1 (Bytes.join [44] s.args ++ [41])
  rw [h, Bytes.cut?_append hresult'.2.2.1, Option.some.injEq, Prod.mk.injEq] at hcut
  obtain ⟨hsame, hbehind⟩ := hcut
  have hargs : s.args = s'.args := by
    apply args_inj (fun t ht => hs t (by simp [ht])) (fun t ht => hs' t (by simp [ht]))
    exact (List.append_cancel_right hbehind).symm
  cases s
  cases s'
  simp_all

end Signature

/-! ## Groups -/

/-- Groups of functions are the classes of equal signatures among them. -/
structure SignatureClasses (functions : List FunctionInfo) (groups : List SignatureGroup) :
    Prop where
  /-- Each function of the list is in one group, once for each time that it is in the list. -/
  each_once : (grouped groups).Perm functions
  in_order : ∀ g ∈ groups, g.functions = functions.filter (·.signature == g.signature)
  /-- The groups stand in the order in which their signatures first appear. -/
  by_first_appearance : groups.map (·.signature) = (functions.map (·.signature)).eraseDups
  /-- Two functions are in one group exactly if they have one signature. -/
  together_iff : ∀ f ∈ functions, ∀ f' ∈ functions,
    (∃ g ∈ groups, f ∈ g.functions ∧ f' ∈ g.functions) ↔ f.signature = f'.signature

/-- The groups of signatures, each with the functions that `members` gives it. -/
def groupsOf (members : Signature → List FunctionInfo) (classes : List Signature) :
    List SignatureGroup :=
  classes.map fun s => ⟨s, members s⟩

/-- Where keys are as good as signatures, a function is added to the group of its signature, or
becomes a group of its own at the end. -/
lemma addToGroups_groupsOf {f : FunctionInfo} {classes : List Signature}
    {members : Signature → List FunctionInfo}
    (hnodup : classes.Nodup) (hkey : ∀ s ∈ classes, s.key = f.signature.key → s = f.signature)
    (hnew : f.signature ∉ classes → members f.signature = []) :
    addToGroups f (groupsOf members classes) =
      groupsOf (fun s => members s ++ if f.signature = s then [f] else [])
        (if f.signature ∈ classes then classes else classes ++ [f.signature]) := by
  induction classes with
  | nil => simp [groupsOf, addToGroups, hnew (by simp)]
  | cons s rest ih =>
    obtain ⟨hfresh, hrest⟩ := List.nodup_cons.1 hnodup
    rw [List.forall_mem_cons] at hkey
    by_cases hs : s = f.signature
    · subst hs
      have hothers : groupsOf (fun s => members s ++ if f.signature = s then [f] else []) rest =
          groupsOf members rest := by
        apply List.map_congr_left
        intro s hmem
        have hne : f.signature ≠ s := fun heq => hfresh (heq ▸ hmem)
        simp [hne]
      rw [if_pos (by simp)]
      simpa [groupsOf, addToGroups] using hothers.symm
    · have hdiffers : s.key ≠ f.signature.key := fun heq => hs (hkey.1 heq)
      have hmem : f.signature ∈ s :: rest ↔ f.signature ∈ rest := by simp [Ne.symm hs]
      have hstep : addToGroups f (groupsOf members (s :: rest)) =
          ⟨s, members s⟩ :: addToGroups f (groupsOf members rest) := by
        simp [groupsOf, addToGroups, hdiffers]
      rw [hstep, ih hrest hkey.2 fun hnot => hnew (by rwa [hmem])]
      simp only [hmem]
      split
      · simp [groupsOf, Ne.symm hs]
      · simp [groupsOf, Ne.symm hs]

/-- One more function brings at most one more signature, at the end. -/
lemma eraseDups_concat (signatures : List Signature) (s : Signature) :
      (signatures ++ [s]).eraseDups =
      if s ∈ signatures.eraseDups then signatures.eraseDups else signatures.eraseDups ++ [s] := by
  rw [List.eraseDups_append]
  by_cases hs : s ∈ signatures
  · simp [hs, List.removeAll]
  · simp [hs, List.removeAll, List.eraseDups_cons]

lemma groupBySignature_eq {functions : List FunctionInfo}
    (h : ∀ f ∈ functions, f.signature.IsPlain) :
    groupBySignature functions = groupsOf (fun s => functions.filter (·.signature == s))
      (functions.map (·.signature)).eraseDups := by
  induction functions using List.reverseRecOn with
  | nil => rfl
  | append_singleton functions f ih =>
    have hfunctions : ∀ f' ∈ functions, f'.signature.IsPlain := fun f' hf' => h f' (by simp [hf'])
    have hf : f.signature.IsPlain := h f (by simp)
    have hgroups := ih hfunctions
    have hnodup : (functions.map (·.signature)).eraseDups.Nodup := by
      have hkeys := (wellGrouped_groupBySignature functions).nodup
      rw [hgroups, groupsOf, List.map_map] at hkeys
      exact hkeys.of_map
    have hkey : ∀ s ∈ (functions.map (·.signature)).eraseDups, s.key = f.signature.key → s =
        f.signature := by
      intro s hs heq
      obtain ⟨f', hf', rfl⟩ := List.mem_map.1 (List.mem_eraseDups.1 hs)
      exact (hfunctions f' hf').key_inj hf heq
    have hnew : f.signature ∉ (functions.map (·.signature)).eraseDups →
        functions.filter (·.signature == f.signature) = [] := by
      intro hnot
      rw [List.filter_eq_nil_iff]
      intro f' hf' heq
      exact hnot (List.mem_eraseDups.2 (List.mem_map.2 ⟨f', hf', by simpa using heq⟩))
    rw [groupBySignature, List.foldl_concat, ← groupBySignature, hgroups,
      addToGroups_groupsOf hnodup hkey hnew, List.map_append, List.map_singleton, eraseDups_concat]
    congr 1
    funext s
    by_cases hs : f.signature = s
    · simp [hs]
    · simp [hs]

/-- Groups that have the functions of their signatures hold two functions together exactly if these
have one signature. -/
lemma together_groupsOf_iff {functions : List FunctionInfo} {f f' : FunctionInfo}
    (hf : f ∈ functions) (hf' : f' ∈ functions) :
    (∃ g ∈ groupsOf (fun s => functions.filter (·.signature == s))
      (functions.map (·.signature)).eraseDups,
      f ∈ g.functions ∧ f' ∈ g.functions) ↔ f.signature = f'.signature := by
  constructor
  · rintro ⟨g, hg, hmem, hmem'⟩
    obtain ⟨s, -, rfl⟩ := List.mem_map.1 hg
    have hs : f.signature = s := by simpa using (List.mem_filter.1 hmem).2
    have hs' : f'.signature = s := by simpa using (List.mem_filter.1 hmem').2
    rw [hs, hs']
  · intro hsame
    have hclass : f.signature ∈ (functions.map (·.signature)).eraseDups :=
      List.mem_eraseDups.2 (List.mem_map_of_mem hf)
    exact ⟨_, List.mem_map_of_mem hclass, by simp [hf], by simp [hf', hsame]⟩

/-- Functions whose types are not empty and hold no comma or parenthesis are grouped into the
classes of equal signatures. -/
theorem groups_are_signature_classes (functions : List FunctionInfo)
    (h : ∀ f ∈ functions, f.signature.IsPlain) :
    SignatureClasses functions (groupBySignature functions) := by
  have hgroups := groupBySignature_eq h
  refine ⟨groupBySignature_perm functions, ?_, ?_, ?_⟩
  · intro g hg
    rw [hgroups] at hg
    obtain ⟨s, -, rfl⟩ := List.mem_map.1 hg
    rfl
  · rw [hgroups, groupsOf, List.map_map]
    exact List.map_id _
  · intro f hf f' hf'
    rw [hgroups]
    exact together_groupsOf_iff hf hf'

/-- Functions with two signatures by turns, and one of them twice. -/
def mixedFunctions : List FunctionInfo :=
  let object : Param := ⟨"obj", "lv_obj_t *", none⟩
  let width : FunctionInfo :=
    ⟨"lv_obj_set_width", "void", none, [object, ⟨"w", "int32_t", none⟩], false, []⟩
  [width, ⟨"lv_obj_clean", "void", none, [object], false, []⟩,
    ⟨"lv_obj_set_height", "void", none, [object, ⟨"h", "int32_t", none⟩], false, []⟩, width]

theorem mixedFunctions_signature_classes :
    (∀ f ∈ mixedFunctions, f.signature.IsPlain) ∧
      (groupBySignature mixedFunctions).map (·.functions.length) = [3, 1] ∧
      SignatureClasses mixedFunctions (groupBySignature mixedFunctions) :=
  have hplain : ∀ f ∈ mixedFunctions, f.signature.IsPlain := by decide +kernel
  ⟨hplain, by decide +kernel, groups_are_signature_classes mixedFunctions hplain⟩

end Api

end UiCodegen
