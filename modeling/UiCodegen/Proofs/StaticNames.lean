import UiCodegen.Proofs.Traces

/-!
# When names at file scope are distinct

Static strings and styles are numbered in families of their own, and the lookup of entities by name
is declared once. Static arrays are named on request: the first request for a base gets the base
itself, and the `k`th one the base with the number `k` behind it.  Requests are counted for each
base on its own, so a base that looks like the numbered form of another base can be given twice.

The names of a session are distinct exactly if this never happens: no base that was asked for is the
numbered form, up to the number of requests, of a base that was asked for.  Arrays can clash with
each other only, never with strings, styles or the lookup, although what their names are made of is
chosen by the document and the API.
-/

namespace UiCodegen.Transpile

variable {n : Nat} {base front : Bytes} {st st' : State}

/-! ## Requests -/

/-- The requests for names, the latest first, each with its number among those for its base. -/
def Counted : List (Bytes × Nat) → Prop
  | [] => True
  | (base, k) :: older => k = (older.map Prod.fst).count base + 1 ∧ Counted older

def Separate (bases : List Bytes) : Prop :=
  ∀ base ∈ bases, ∀ k ≤ bases.count base, 2 ≤ k → numbered base k ∉ bases

instance (bases : List Bytes) : Decidable (Separate bases) :=
  inferInstanceAs
    (Decidable (∀ base ∈ bases, ∀ k ≤ bases.count base, 2 ≤ k → numbered base k ∉ bases))

def requestName (request : Bytes × Nat) : Bytes := nameOfRequest request.1 request.2

namespace Counted

variable {asked : List (Bytes × Nat)}

lemma lookup (h : Counted asked) (base : Bytes) :
    (asked.lookup base).getD 0 = (asked.map Prod.fst).count base := by
  induction asked with
  | nil => rfl
  | cons request older ih =>
    obtain ⟨hk, holder⟩ := h
    rw [List.lookup_cons, List.map_cons, List.count_cons]
    by_cases hbase : base = request.1
    · subst hbase
      simp [hk]
    · have hne : (base == request.1) = false := beq_eq_false_iff_ne.2 hbase
      have hne' : (request.1 == base) = false := beq_eq_false_iff_ne.2 (Ne.symm hbase)
      simp [hne, hne', ih holder]

lemma mem_iff (h : Counted asked) {k : Nat} :
    (base, k) ∈ asked ↔ 1 ≤ k ∧ k ≤ (asked.map Prod.fst).count base := by
  induction asked with
  | nil =>
    simp
    omega
  | cons request older ih =>
    obtain ⟨first, n⟩ := request
    obtain ⟨hn, holder⟩ := h
    rw [List.mem_cons, ih holder, List.map_cons, List.count_cons, Prod.mk.injEq]
    by_cases hbase : base = first
    · subst hbase
      simp only [beq_self_eq_true, if_true, true_and]
      omega
    · have hne : (first == base) = false := beq_eq_false_iff_ne.2 (Ne.symm hbase)
      simp [hbase, hne]

lemma nodup (h : Counted asked) : asked.Nodup := by
  induction asked with
  | nil => exact List.nodup_nil
  | cons request older ih =>
    obtain ⟨first, n⟩ := request
    obtain ⟨hn, holder⟩ := h
    refine List.nodup_cons.2 ⟨fun hmem => ?_, ih holder⟩
    have hbound := (holder.mem_iff.1 hmem).2
    omega

/-- **Names on request are distinct exactly if the bases are separate.** -/
lemma nodup_names_iff (h : Counted asked) :
    (asked.map requestName).Nodup ↔ Separate (asked.map Prod.fst) := by
  rw [List.nodup_map_iff_inj_on h.nodup]
  constructor
  · intro hinj base hbase k hk htwo hmem
    -- Both the `k`th request for `base` and the first one for its numbered form get the same name.
    have hfirst : (numbered base k, 1) ∈ asked := h.mem_iff.2 ⟨le_refl 1, List.count_pos_iff.2 hmem⟩
    have hkth : (base, k) ∈ asked := h.mem_iff.2 ⟨by omega, hk⟩
    have heq := hinj _ hkth _ hfirst (by simp [requestName, nameOfRequest, show k ≠ 1 by omega])
    simp only [Prod.mk.injEq] at heq
    omega
  · rintro hseparate ⟨base, k⟩ hbase ⟨base', k'⟩ hbase' hname
    obtain ⟨hk, hcount⟩ := h.mem_iff.1 hbase
    obtain ⟨hk', hcount'⟩ := h.mem_iff.1 hbase'
    have hmem : base ∈ asked.map Prod.fst := List.mem_map_of_mem hbase
    have hmem' : base' ∈ asked.map Prod.fst := List.mem_map_of_mem hbase'
    simp only [requestName, nameOfRequest] at hname
    split_ifs at hname with hone hone' hone'
    · rw [hname, hone, hone']
    · exact absurd (hname ▸ hmem) (hseparate base' hmem' k' hcount' (by omega))
    · exact absurd (hname ▸ hmem') (hseparate base hmem k hcount (by omega))
    · obtain ⟨rfl, rfl⟩ := numbered_inj.1 hname
      rfl

end Counted

/-! ## Sequences of requests -/

lemma separate_reverse {bases : List Bytes} : Separate bases.reverse ↔ Separate bases := by
  simp [Separate]

lemma Counted.next (hst : Counted st.asked) (base : Bytes) :
    Counted ((base, st.requests base + 1) :: st.asked) :=
  ⟨by rw [State.requests, hst.lookup], hst⟩

lemma outcome_uniqueNames (bases : List Bytes) (st : State) (hst : Counted st.asked) :
    ∃ names asked, (bases.mapM uniqueName).outcome st = some (.ok names, { st with asked }) ∧
      Counted asked ∧ asked.map requestName = names.reverse ++ st.asked.map requestName ∧
      asked.map Prod.fst = bases.reverse ++ st.asked.map Prod.fst := by
  induction bases generalizing st with
  | nil => exact ⟨[], st.asked, rfl, hst, rfl, rfl⟩
  | cons base rest ih =>
    obtain ⟨names, asked, hrest, hasked, hnames, hbases⟩ :=
      ih { st with asked := (base, st.requests base + 1) :: st.asked } (hst.next base)
    refine ⟨nameOfRequest base (st.requests base + 1) :: names, asked, ?_, hasked, ?_, ?_⟩
    · rw [List.mapM_cons, Run.outcome_bind, outcome_uniqueName]
      dsimp only
      rw [Run.outcome_bind, hrest]
      rfl
    · rw [hnames]
      simp [requestName]
    · rw [hbases]
      simp

/-- Names requested one after the other are distinct exactly if their bases are separate. -/
lemma nodup_uniqueNames_iff (bases : List Bytes) :
    ∃ names st, (bases.mapM uniqueName).outcome {} = some (.ok names, st) ∧
    (names.Nodup ↔ Separate bases) := by
  obtain ⟨names, asked, hrun, hasked, hnames, hbases⟩ := outcome_uniqueNames bases {} trivial
  refine ⟨names, _, hrun, ?_⟩
  have hiff := hasked.nodup_names_iff
  rw [hnames, hbases] at hiff
  simpa [separate_reverse] using hiff

/-! ## Arrays clash with nothing but arrays -/

/-- The names of strings, styles and the lookup of entities. -/
inductive Reserved : Bytes → Prop
  | string (n : Nat) : Reserved (numbered "c_str" n)
  | style (n : Nat) : Reserved (numbered "c_style" n)
  | lookup : Reserved "lvgl_json_get_registered_ptr"

lemma getLast?_numbered (stem : Bytes) (n : Nat) :
    ∃ b, (numbered stem n).getLast? = some b ∧ Bytes.isDigit b = true := by
  have hlast := List.getLast?_eq_some_getLast (ofNat_ne_nil n)
  refine ⟨_, ?_, isDigit_of_mem_ofNat (List.getLast_mem (ofNat_ne_nil n))⟩
  rw [numbered, List.getLast?_append, hlast]
  rfl

lemma exists_digit {entity : Bytes} (hentity : IsNumbered entity) :
    ∃ b ∈ entity, Bytes.isDigit b = true := by
  obtain ⟨stem, n, rfl⟩ := hentity
  obtain ⟨b, hlast, hdigit⟩ := getLast?_numbered stem n
  exact ⟨b, List.mem_of_getLast? hlast, hdigit⟩

/-- Behind the number of an entity there is a further underscore, so a text without digits in front of its
last one is not made of an entity and an attribute. -/
lemma attribute_ne_numbered {entity part : Bytes} (hentity : IsNumbered entity)
    (hfront : ∀ b ∈ front, Bytes.isDigit b = false) (n : Nat) :
    entity ++ "_" ++ part ≠ numbered front n := by
  obtain ⟨d, hd, hdigit⟩ := exists_digit hentity
  have hnot : d ∉ front := fun hmem => by simp [hfront d hmem] at hdigit
  intro h
  have hscore : entity ++ 95 :: part = front ++ 95 :: Bytes.ofNat n := by
    simpa [numbered, show Bytes.ofString "_" = [95] by decide] using h
  obtain ⟨rest, hrest, -⟩ | ⟨rest, hrest, htail⟩ := List.append_eq_append_iff.1 hscore
  · -- The entity would be part of the front, which has no digits.
    exact hnot (hrest ▸ List.mem_append_left _ hd)
  · cases rest with
    | nil => exact hnot (by simpa [hrest] using hd)
    | cons b rest =>
      -- The underscore behind the entity would be among the digits of the number.
      have hmem : (95 : UInt8) ∈ Bytes.ofNat n := by
        rw [(List.cons.inj htail).2]
        simp
      exact underscore_notMem_ofNat n hmem

lemma numbered_ne_lookup (stem : Bytes) (n : Nat) :
    numbered stem n ≠ Bytes.ofString "lvgl_json_get_registered_ptr" := by
  intro h
  obtain ⟨b, hlast, hdigit⟩ := getLast?_numbered stem n
  rw [h, show (Bytes.ofString "lvgl_json_get_registered_ptr").getLast? =
    some 114 by decide] at hlast
  cases hlast
  exact absurd hdigit (by decide)

lemma getLast?_argument (function : Bytes) :
    (C.identifier function ++ "_arg").getLast? = some 103 := by
  rw [List.getLast?_append, show (Bytes.ofString "_arg").getLast? = some 103 by decide]
  rfl

/-- A base is not made of a text without digits and a number. -/
lemma ArrayBase.ne_numbered (hbase : ArrayBase base)
    (hfront : ∀ b ∈ front, Bytes.isDigit b = false) (n : Nat) : base ≠ numbered front n := by
  cases hbase with
  | entity hentity part => exact attribute_ne_numbered hentity hfront n
  | argument function =>
    intro h
    obtain ⟨b, hlast, hdigit⟩ := getLast?_numbered front n
    rw [← h, getLast?_argument] at hlast
    cases hlast
    exact absurd hdigit (by decide)
  | plain =>
    intro h
    obtain ⟨b, hlast, hdigit⟩ := getLast?_numbered front n
    rw [← h, show (Bytes.ofString "c_arr").getLast? = some 114 by decide] at hlast
    cases hlast
    exact absurd hdigit (by decide)

/-- A base that holds no digits is one for an argument, or the one for arrays of neither kind. -/
lemma ArrayBase.ne_of_digitless {text : Bytes} (hbase : ArrayBase base)
    (htext : ∀ b ∈ text, Bytes.isDigit b = false) (hlast : text.getLast? ≠ some 103)
    (hplain : text ≠ Bytes.ofString "c_arr") : base ≠ text := by
  rintro rfl
  cases hbase with
  | entity hentity part =>
    obtain ⟨d, hd, hdigit⟩ := exists_digit hentity
    have hfalse := htext d (by simp [hd])
    simp [hfalse] at hdigit
  | argument function => exact hlast (getLast?_argument function)
  | plain => exact hplain rfl

/-- An array is never named like a string, a style or the lookup of entities. -/
lemma ArrayBase.not_reserved (hbase : ArrayBase base) (k : Nat) :
    ¬ Reserved (nameOfRequest base k) := by
  intro hreserved
  generalize hname : nameOfRequest base k = name at hreserved
  unfold nameOfRequest at hname
  cases hreserved with
  | string n | style n =>
    split at hname
    · exact hbase.ne_numbered (by decide +kernel) n hname
    · exact hbase.ne_of_digitless (by decide +kernel) (by decide) (by decide)
        (numbered_inj.1 hname).1
  | lookup =>
    split at hname
    · exact hbase.ne_of_digitless (by decide +kernel) (by decide) (by decide) hname
    · exact numbered_ne_lookup base k hname

/-! ## The definitions of a session -/

def Definition.isArray : Definition → Bool
  | array _ _ _ => true
  | string _ _ | style _ | registryLookup => false

/-- The names of so many strings and styles, and of the lookup if it is declared. -/
inductive Given (strings styles : Nat) (lookup : Bool) : Bytes → Prop
  | string {n : Nat} (h : n ≤ strings) : Given strings styles lookup (numbered "c_str" n)
  | style {n : Nat} (h : n ≤ styles) : Given strings styles lookup (numbered "c_style" n)
  | lookup (h : lookup = true) : Given strings styles lookup "lvgl_json_get_registered_ptr"

/-- The arrays of a state carry the names that were requested, and what else is defined carries
names of its own. -/
structure State.Named (st : State) : Prop where
  counted : Counted st.asked
  bases : ∀ request ∈ st.asked, ArrayBase request.1
  arrays : (st.definitions.filter Definition.isArray).map Definition.name = st.asked.map requestName
  given : ∀ name ∈ (st.definitions.filter fun d => !d.isArray).map Definition.name,
    Given st.strings.length st.counter st.lookupDeclared name
  nodup : ((st.definitions.filter fun d => !d.isArray).map Definition.name).Nodup

section

variable {strings styles : Nat} {lookup : Bool} {name : Bytes}

lemma Given.reserved (h : Given strings styles lookup name) : Reserved name := by
  cases h with
  | string h => exact .string _
  | style h => exact .style _
  | lookup h => exact .lookup

lemma Given.mono {strings' styles' : Nat} {lookup' : Bool} (h : Given strings styles lookup name)
    (hstrings : strings ≤ strings') (hstyles : styles ≤ styles')
    (hlookup : lookup = true → lookup' = true) :
    Given strings' styles' lookup' name := by
  cases h with
  | string h => exact .string (h.trans hstrings)
  | style h => exact .style (h.trans hstyles)
  | lookup h => exact .lookup (hlookup h)

lemma given_string_iff : Given strings styles lookup (numbered "c_str" n) ↔ n ≤ strings := by
  refine ⟨fun h => ?_, .string⟩
  generalize hname : numbered "c_str" n = name at h
  cases h with
  | string h => exact (numbered_inj.1 hname).2 ▸ h
  | style h => exact absurd (numbered_inj.1 hname).1 (by decide)
  | lookup h => exact absurd hname (numbered_ne_lookup _ n)

lemma given_style_iff : Given strings styles lookup (numbered "c_style" n) ↔ n ≤ styles := by
  refine ⟨fun h => ?_, .style⟩
  generalize hname : numbered "c_style" n = name at h
  cases h with
  | string h => exact absurd (numbered_inj.1 hname).1 (by decide)
  | style h => exact (numbered_inj.1 hname).2 ▸ h
  | lookup h => exact absurd hname (numbered_ne_lookup _ n)

lemma given_lookup_iff :
    Given strings styles lookup "lvgl_json_get_registered_ptr" ↔ lookup = true := by
  refine ⟨fun h => ?_, .lookup⟩
  generalize hname : Bytes.ofString "lvgl_json_get_registered_ptr" = name at h
  cases h with
  | string h | style h => exact absurd hname.symm (numbered_ne_lookup _ _)
  | lookup h => exact h

end

/-- A definition that is no array, under a name that has not been given before. -/
lemma State.Named.define (hst : st.Named) {d : Definition} (hd : d.isArray = false)
    (hdefinitions : st'.definitions = d :: st.definitions) (hasked : st'.asked = st.asked)
    (hmono : ∀ name, Given st.strings.length st.counter st.lookupDeclared name →
      Given st'.strings.length st'.counter st'.lookupDeclared name)
    (hgiven : Given st'.strings.length st'.counter st'.lookupDeclared d.name)
    (hnew : ¬ Given st.strings.length st.counter st.lookupDeclared d.name) : st'.Named := by
  obtain ⟨hcounted, hbases, harrays, hold, hnodup⟩ := hst
  refine ⟨hasked ▸ hcounted, hasked ▸ hbases, ?_, ?_, ?_⟩
  · rw [hdefinitions, hasked, List.filter_cons_of_neg (by simp [hd]), harrays]
  · rw [hdefinitions, List.filter_cons_of_pos (by simp [hd]), List.map_cons]
    exact List.forall_mem_cons.2 ⟨hgiven, fun name hname => hmono name (hold name hname)⟩
  · rw [hdefinitions, List.filter_cons_of_pos (by simp [hd]), List.map_cons]
    exact List.nodup_cons.2 ⟨fun hmem => hnew (hold _ hmem), hnodup⟩

lemma Effect.named {cfg : Settings} (h : Effect cfg st st') (hst : st.Named) : st'.Named := by
  cases h with
  | remember | report | call | grid | keep | register | component =>
    exact ⟨hst.counted, hst.bases, hst.arrays, hst.given, hst.nodup⟩
  | widget =>
    refine ⟨hst.counted, hst.bases, hst.arrays, fun name hname => ?_, hst.nodup⟩
    exact (hst.given name hname).mono (le_refl _) (Nat.le_succ _) id
  | array hbase elemType hitems =>
    exact ⟨hst.counted.next _, List.forall_mem_cons.2 ⟨hbase, hst.bases⟩, congrArg
      (List.cons _) hst.arrays, hst.given, hst.nodup⟩
  | string text =>
    refine hst.define rfl rfl rfl (fun name h => h.mono (Nat.le_succ _) (le_refl _) id)
      (.string (le_refl _)) ?_
    exact fun hold => absurd (given_string_iff.1 hold) (Nat.not_succ_le_self _)
  | style =>
    refine hst.define rfl rfl rfl (fun name h => h.mono (le_refl _) (Nat.le_succ _) id)
      (.style (le_refl _)) ?_
    exact fun hold => absurd (given_style_iff.1 hold) (Nat.not_succ_le_self _)
  | lookup hnew =>
    refine hst.define rfl rfl rfl (fun name h => h.mono (le_refl _) (le_refl _) fun _ => rfl)
      (.lookup rfl) ?_
    exact fun hold => absurd (given_lookup_iff.1 hold) (by simp [hnew])

/-- Definitions clash exactly if arrays do. -/
lemma State.Named.nodup_iff {st : State} (hst : st.Named) :
    (st.definitions.map Definition.name).Nodup ↔ Separate (st.asked.map Prod.fst) := by
  have hperm : ((st.definitions.filter Definition.isArray).map Definition.name ++
      (st.definitions.filter fun d => !d.isArray).map Definition.name).Perm
        (st.definitions.map Definition.name) := by
    rw [← List.map_append]
    exact (List.filter_append_perm _ _).map _
  have hdisjoint : ∀ name ∈ st.asked.map requestName,
      ∀ other ∈ (st.definitions.filter fun d => !d.isArray).map Definition.name, name ≠ other := by
    intro name hname other hother heq
    obtain ⟨request, hrequest, rfl⟩ := List.mem_map.1 hname
    have hreserved := (hst.given other hother).reserved
    rw [← heq] at hreserved
    exact (hst.bases request hrequest).not_reserved request.2 hreserved
  rw [← hperm.nodup_iff, hst.arrays, List.nodup_append, ← hst.counted.nodup_names_iff]
  exact ⟨fun h => h.1, fun h => ⟨h, hst.nodup, hdisjoint⟩⟩

/-- **When names at file scope are distinct.**  In the code of a session no two definitions share a
name if and only if the bases that were asked for are separate.  Likewise for any sequence of
requests: the names are distinct if and only if the bases are separate. -/
theorem static_names_distinct_iff {cfg : Settings} {st : State} (h : Session cfg st) :
    ((st.definitions.map Definition.name).Nodup ↔ Separate (st.asked.map Prod.fst)) ∧
    ∀ bases, ∃ names st', (bases.mapM uniqueName).outcome {} = some (.ok names, st') ∧
      (names.Nodup ↔ Separate bases) := by
  have hnamed : st.Named :=
    h.invariant (fun _ => ⟨trivial, by simp, rfl, by simp, by simp⟩) fun _ _ => Effect.named
  exact ⟨hnamed.nodup_iff, nodup_uniqueNames_iff⟩

def arraySettings : Settings :=
  settingsOf [declare "lv_obj_create" "lv_obj_t *" ["lv_obj_t *"],
    declare "lv_obj_set_a" "void" ["lv_obj_t *", "int32_t *"],
    declare "lv_obj_set_a_2" "void" ["lv_obj_t *", "int32_t *"]]

/-- A box on which an attribute is set twice, and then the attribute whose name is the numbered form
of it. -/
def clashingBox :
    Value := .obj [("a", .arr [.num "1"]), ("a", .arr [.num "2"]), ("a_2", .arr [.num "3"])]

/-- A box on which an attribute is set twice. -/
def repeatingBox : Value := .obj [("a", .arr [.num "1"]), ("a", .arr [.num "2"])]

set_option maxRecDepth 100000 in
/-- A base that is asked for again is separate from itself. -/
theorem repeatingBox_names_distinct :
    ∃ st, Session arraySettings st ∧ st.asked.map Prod.fst = ["obj_1_a", "obj_1_a"].map
      Bytes.ofString ∧ (st.definitions.map Definition.name).Nodup := by
  have hrun : ((run arraySettings repeatingBox).outcome {}).map (fun r => r.2.asked.map Prod.fst) =
      some (["obj_1_a", "obj_1_a"].map Bytes.ofString) := by
    cbv
  obtain ⟨⟨r, st⟩, houtcome, hasked⟩ := Option.map_eq_some_iff.1 hrun
  have hsession : Session arraySettings st := (Session.start []).run repeatingBox houtcome
  refine ⟨st, hsession, hasked, (static_names_distinct_iff hsession).1.2 ?_⟩
  dsimp only at hasked
  rw [hasked]
  decide +kernel

set_option maxRecDepth 100000 in
/-- The second array of one attribute and the first of the other are both named `obj_1_a_2`. -/
theorem clashingBox_names_clash :
    ∃ st, Session arraySettings st ∧
      st.definitions.map Definition.name = ["obj_1_a_2", "obj_1_a_2", "obj_1_a"].map
      Bytes.ofString ∧
      ¬ (st.definitions.map Definition.name).Nodup := by
  have hrun : ((run arraySettings clashingBox).outcome {}).map
      (fun r => r.2.definitions.map Definition.name) =
      some (["obj_1_a_2", "obj_1_a_2", "obj_1_a"].map Bytes.ofString) := by
    cbv
  obtain ⟨⟨r, st⟩, houtcome, hnames⟩ := Option.map_eq_some_iff.1 hrun
  refine ⟨st, (Session.start []).run clashingBox houtcome, hnames, ?_⟩
  dsimp only at hnames
  rw [hnames]
  decide +kernel

end UiCodegen.Transpile
