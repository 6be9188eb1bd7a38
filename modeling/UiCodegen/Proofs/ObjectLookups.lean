import Mathlib
import UiCodegen.Document.Heap

/-!
# Lookups and the pairs they come from

An object is listed by its pairs and asked through its overlay.  An object is in step if the overlay
leads from each key to its last pair (`Object.InStep`); adding, setting and copying keep this, and
so does every run of them (`inStep_exec`, `run_induction`).  A key that is bound then divides the
pairs at its last pair: asking yields the value of that pair, and setting exchanges it
(`Object.InStep.divided_at_last`).

A copy has its cells behind those that were there (`IsCopy`), so that no change to it reaches them.
-/

namespace UiCodegen

namespace Fields

/-! ## The last pair of a key -/

/-- A key is not bound, or no pair behind some pair of it has the key. -/
lemma notMem_or_exists_last {α : Type} (pairs : List (Bytes × α)) (key : Bytes) :
    key ∉ pairs.map Prod.fst ∨
    ∃ front old back, pairs = front ++ (key, old) :: back ∧ key ∉ back.map Prod.fst := by
  induction pairs with
  | nil => simp
  | cons pair pairs ih =>
    obtain hrest | ⟨front, old, back, rfl, hback⟩ := ih
    · by_cases hkey : pair.1 = key
      · exact .inr ⟨[], pair.2, pairs, by simp [← hkey], hrest⟩
      · exact .inl (by simpa [Ne.symm hkey] using hrest)
    · exact .inr ⟨pair :: front, old, back, rfl, hback⟩

lemma foldl_of_notMem {fields : Fields} {key : Bytes} (h : key ∉ fields.map Prod.fst)
    (found : Option Value) :
    fields.foldl (fun found (k, v) => if k == key then some v else found) found = found := by
  induction fields with
  | nil => rfl
  | cons pair fields ih =>
    simp only [List.map_cons, List.mem_cons, not_or] at h
    simpa [Ne.symm h.1] using ih h.2

lemma get?_of_last {key : Bytes} {back : Fields} (h : key ∉ back.map Prod.fst) (front : Fields)
    (old : Value) : get? (front ++ (key, old) :: back) key = some old := by
  rw [get?, List.foldl_append, List.foldl_cons, foldl_of_notMem h]
  simp

/-! ## Keys in the order of their first pairs -/

lemma distinct_append (keys : List Bytes) (key : Bytes) :
    distinct (keys ++ [key]) = if key ∈ distinct keys then distinct keys else distinct keys ++
    [key] := by
  simp only [distinct, List.foldl_append, List.foldl_cons, List.foldl_nil, List.mem_reverse]
  split_ifs <;> simp_all

/-- Each key is listed, in the order in which the keys appear first. -/
lemma distinct_listed (keys : List Bytes) : (∀ key, key ∈ distinct keys ↔ key ∈ keys) ∧
    (distinct keys).Pairwise fun a b => keys.idxOf a < keys.idxOf b := by
  induction keys using List.reverseRecOn with
  | nil => simp [distinct]
  | append_singleton keys new ih =>
    obtain ⟨hmem, horder⟩ := ih
    have hkeep : (distinct keys).Pairwise fun a b =>
        (keys ++ [new]).idxOf a < (keys ++ [new]).idxOf b := by
      refine horder.imp_of_mem fun {a b} ha hb hlt => ?_
      rwa [List.idxOf_append_of_mem ((hmem a).1 ha), List.idxOf_append_of_mem ((hmem b).1 hb)]
    rw [distinct_append]
    split_ifs with hold
    · refine ⟨fun key => ?_, hkeep⟩
      rw [hmem, List.mem_append, or_iff_left_of_imp]
      rintro hnew
      rw [List.mem_singleton.1 hnew, ← hmem]
      exact hold
    · refine ⟨fun key => by simp [hmem],
        List.pairwise_append.2 ⟨hkeep, List.pairwise_singleton _ _, ?_⟩⟩
      rintro a ha b hb
      obtain rfl := List.mem_singleton.1 hb
      rw [hmem] at hold
      rw [List.idxOf_append_of_mem ((hmem a).1 ha), List.idxOf_append_of_notMem hold]
      exact Nat.lt_add_right _ (List.idxOf_lt_length_iff.2 ((hmem a).1 ha))

end Fields

namespace Heap

namespace Object

/-! ## The overlay and the last pair of a key -/

/-- The overlay leads from each key to its last pair. -/
def InStep (o : Object) : Prop :=
  ∀ key i, o.place? key = some i ↔
    (o.pairs.map Prod.fst)[i]? = some key ∧ ∀ j, i < j → (o.pairs.map Prod.fst)[j]? ≠ some key

lemma inStep_empty : empty.InStep := by simp [InStep, empty, place?]

lemma inStep_zero : InStep {} := by simp [InStep, place?]

/-- Only the keys and the overlay matter. -/
lemma InStep.congr {o p : Object} (h : o.InStep)
    (hkeys : p.pairs.map Prod.fst = o.pairs.map Prod.fst)
    (hover : p.overlay.getD [] = o.overlay.getD []) : p.InStep := by
  intro key i
  rw [hkeys, ← h key i, place?, place?, hover]

lemma getElem?_append_singleton_eq_some {α : Type} {xs : List α} {x y : α} {i : Nat} :
    (xs ++ [x])[i]? = some y ↔ xs[i]? = some y ∨ i = xs.length ∧ x = y := by
  rw [List.getElem?_append]
  split_ifs with hi
  · have : i ≠ xs.length := hi.ne
    simp [this]
  · rw [List.getElem?_singleton, List.getElem?_eq_none (Nat.not_lt.1 hi)]
    have : i - xs.length = 0 ↔ i = xs.length := by omega
    simp [this]

lemma InStep.append {o : Object} (h : o.InStep) (key : Bytes) (v : Ref) :
    (o.append key v).InStep := by
  intro asked i
  have hlength : o.pairs.length = (o.pairs.map Prod.fst).length := (List.length_map _).symm
  simp only [place?, Object.append, Option.getD_some, List.map_append, List.map_cons, List.map_nil,
    List.lookup_cons, ne_eq, getElem?_append_singleton_eq_some, not_or]
  by_cases hasked : asked = key
  · -- the new pair is behind all others
    subst hasked
    rw [beq_self_eq_true, ← hlength]
    constructor
    · rintro ⟨⟩
      refine ⟨.inr ⟨rfl, rfl⟩, fun j hj => ⟨?_, by omega⟩⟩
      rw [List.getElem?_eq_none (by omega)]
      nofun
    · rintro ⟨hfound | ⟨rfl, -⟩, hlast⟩
      · have hi := (List.getElem?_eq_some_iff.1 hfound).1
        exact absurd ⟨rfl, rfl⟩ (hlast o.pairs.length (by omega)).2
      · rfl
  · rw [beq_false_of_ne hasked]
    simp only [Ne.symm hasked, and_false, or_false, not_false_eq_true, and_true]
    exact h asked i

lemma map_fst_modify (pairs : List (Bytes × Ref)) (i : Nat) (v : Ref) :
    (pairs.modify i fun pair => (pair.1, v)).map Prod.fst = pairs.map Prod.fst := by
  refine List.ext_getElem? fun j => ?_
  rw [List.getElem?_map, List.getElem?_map, List.getElem?_modify, Option.map_eq_map, Option.map_map]
  split_ifs <;> rfl

lemma InStep.set {o : Object} (h : o.InStep) (key : Bytes) (v : Ref) : (o.set key v).InStep := by
  rw [Object.set]
  split
  · exact h.congr (map_fst_modify o.pairs _ v) rfl
  · exact h.append key v

lemma InStep.place?_of_last {o : Object} (h : o.InStep) {key : Bytes} (front : List Bytes)
    {back : List Bytes} (hkeys : o.pairs.map Prod.fst = front ++ key :: back) (hback : key ∉ back) :
    o.place? key = some front.length := by
  rw [h, hkeys]
  refine ⟨by simp, fun j hj hkey => hback ?_⟩
  obtain ⟨k, rfl⟩ := Nat.exists_eq_add_of_lt hj
  rw [List.getElem?_append_right (by omega), show front.length + k + 1 - front.length =
    k + 1 by omega] at hkey
  exact List.mem_of_getElem? hkey

lemma InStep.place?_of_notMem {o : Object} (h : o.InStep) {key : Bytes}
    (hkey : key ∉ o.pairs.map Prod.fst) : o.place? key = none := by
  rw [Option.eq_none_iff_forall_ne_some]
  intro i hi
  exact hkey (List.mem_of_getElem? ((h key i).1 hi).1)

/-- In an object in step, asking for a key and setting it are about its last pair; setting a key
that is not bound adds one pair. -/
lemma InStep.divided_at_last {o : Object} (h : o.InStep) (key : Bytes) (v : Ref) :
    (key ∉ o.pairs.map Prod.fst ∧ o.get? key = none ∧ (o.set key v).pairs = o.pairs ++ [(key, v)]) ∨
    ∃ front old back, o.pairs = front ++ (key, old) :: back ∧ key ∉ back.map Prod.fst ∧
      o.get? key = some old ∧ (o.set key v).pairs = front ++ (key, v) :: back := by
  obtain hnot | ⟨front, old, back, hpairs, hback⟩ := Fields.notMem_or_exists_last o.pairs key
  · have hplace := h.place?_of_notMem hnot
    exact .inl ⟨hnot, by rw [get?, hplace]; rfl, by rw [Object.set, hplace]; rfl⟩
  · have hplace : o.place? key = some front.length := by
      simpa using h.place?_of_last (front.map Prod.fst) (by simp [hpairs]) hback
    refine .inr ⟨front, old, back, hpairs, hback, ?_, ?_⟩
    · rw [get?, hplace, hpairs, Option.bind_some, List.getElem?_append_right le_rfl, Nat.sub_self]
      rfl
    · rw [Object.set, hplace]
      simp [hpairs, List.modify_eq_take_cons_drop]

end Object

variable {h h' h'' : Heap} {v w : Ref} {cell : Cell} {k place : Nat}

/-! ## Documents in a heap that grows -/

lemma getElem?_of_prefix (hkept : h <+: h') (hcell : h[place]? = some cell) :
    h'[place]? = some cell := by
  obtain ⟨new, rfl⟩ := hkept
  rwa [List.getElem?_append_left (List.getElem?_eq_some_iff.1 hcell).1]

lemma mapM_of_forall₂ {α β γ : Type} {f : α → Option γ} {g : β → Option γ}
    {xs : List α} {ys : List β}
    (hxy : List.Forall₂ (fun x y => ∀ z, f x = some z → g y = some z) xs ys) {zs : List γ}
    (hzs : xs.mapM f = some zs) : ys.mapM g = some zs := by
  induction hxy generalizing zs with
  | nil => exact hzs
  | cons hhead _ ih =>
    simp only [List.mapM_cons, bind, pure, Option.bind_eq_some_iff] at hzs ⊢
    obtain ⟨z, hz, zs, hzs, heq⟩ := hzs
    exact ⟨z, hhead z hz, zs, ih hzs, heq⟩

lemma read_cell {levels : Nat} {d : Draft} : h.read (levels + 1) (.cell (some place)) = some d ↔
    ∃ cell, h[place]? = some cell ∧ ∃ ds, cell.refs.mapM (h.read levels) = some ds ∧
    cell.draft ds = d := by
  simp [read, Option.bind_eq_some_iff]

/-- What is read stays as it is when cells are made. -/
lemma read_mono (hkept : h <+: h') {levels : Nat} {d : Draft} (hd : h.read levels v = some d) :
    h'.read levels v = some d := by
  induction levels generalizing v d with
  | zero =>
    rcases v with _ | _ | _ | _ | _ | _
    case cell.some => cases hd
    all_goals exact hd
  | succ levels ih =>
    rcases v with _ | _ | _ | _ | _ | place
    case cell.some =>
      obtain ⟨cell, hcell, ds, hds, hdraft⟩ := read_cell.1 hd
      refine read_cell.2 ⟨cell, getElem?_of_prefix hkept hcell, ds, ?_, hdraft⟩
      exact mapM_of_forall₂ (List.forall₂_same.2 fun _ _ _ hz => ih hz) hds
    all_goals exact hd

/-! ## Making cells -/

/-- Every object is in step. -/
def InStep (h : Heap) : Prop := ∀ o, Cell.obj o ∈ h → o.InStep

/-- An array or object that is held stands at `k` or behind it. -/
def Ref.Behind (k : Nat) (v : Ref) : Prop := ∀ place, v = .cell (some place) → k ≤ place

/-- Cells were made: what they hold stands behind the cells that were there, and objects stay in
step. -/
structure Grown (h h' : Heap) : Prop where
  kept : h <+: h'
  behind : ∀ place cell, h.length ≤ place → h'[place]? = some cell → ∀ r ∈ cell.refs,
    r.Behind h.length
  inStep : h.InStep → h'.InStep

lemma Grown.refl (h : Heap) : Grown h h where
  kept := List.prefix_refl h
  behind _ _ hplace hcell := absurd (List.getElem?_eq_some_iff.1 hcell).1 (Nat.not_lt.2 hplace)
  inStep := id

lemma Ref.Behind.mono {j : Nat} (hv : v.Behind k) (hjk : j ≤ k) : v.Behind j :=
  fun place hplace => hjk.trans (hv place hplace)

lemma Grown.trans (hg : Grown h h') (hg' : Grown h' h'') : Grown h h'' where
  kept := hg.kept.trans hg'.kept
  behind place cell hplace hcell r hr := by
    obtain hlt | hge := lt_or_ge place h'.length
    · refine hg.behind place cell hplace ?_ r hr
      rw [← hcell]
      obtain ⟨new, rfl⟩ := hg'.kept
      rw [List.getElem?_append_left hlt]
    · exact (hg'.behind place cell hge hcell r hr).mono hg.kept.length_le
  inStep := hg'.inStep ∘ hg.inStep

/-- One more cell, whose values stand behind the cells that were there first. -/
lemma Grown.make (hg : Grown h h') (hrefs : ∀ r ∈ cell.refs, r.Behind h.length)
    (hobj : h.InStep → ∀ o, cell = .obj o → o.InStep) : Grown h (h' ++ [cell]) where
  kept := hg.kept.trans (List.prefix_append _ _)
  behind place made hplace hmade := by
    obtain hold | ⟨-, rfl⟩ := Object.getElem?_append_singleton_eq_some.1 hmade
    · exact hg.behind place made hplace hold
    · exact hrefs
  inStep hin o ho := by
    obtain hold | hnew := List.mem_append.1 ho
    · exact hg.inStep hin o hold
    · exact hobj hin o (List.mem_singleton.1 hnew).symm

/-! ## Decoded documents -/

/-- A value is read as a document, at this level and at every deeper one. -/
def Reads (h : Heap) (v : Ref) (d : Draft) :
    Prop := ∃ least, ∀ levels, least ≤ levels → h.read levels v = some d

lemma Reads.mono {d : Draft} (hv : Reads h v d) (hkept : h <+: h') : Reads h' v d := by
  obtain ⟨least, hv⟩ := hv
  exact ⟨least, fun levels hlevels => read_mono hkept (hv levels hlevels)⟩

/-- Values that can be read one by one can be read together. -/
lemma exists_mapM_read {vs : List Ref} {ds : List Draft} (hvs : List.Forall₂ (Reads h) vs ds) :
    ∃ least, ∀ levels, least ≤ levels → vs.mapM (h.read levels) = some ds := by
  induction hvs with
  | nil => exact ⟨0, fun _ _ => rfl⟩
  | cons hv _ ih =>
    obtain ⟨least, hv⟩ := hv
    obtain ⟨least', hvs⟩ := ih
    refine ⟨max least least', fun levels hlevels => ?_⟩
    rw [List.mapM_cons, hv levels (by omega), hvs levels (by omega)]
    rfl

lemma Reads.make (cell : Cell) {ds : List Draft} (hrefs : List.Forall₂ (Reads h) cell.refs ds) :
    Reads (h ++ [cell]) (.cell (some h.length)) (cell.draft ds) := by
  obtain ⟨least, hrefs⟩ := exists_mapM_read hrefs
  refine ⟨least + 1, fun levels hlevels => ?_⟩
  obtain ⟨levels, rfl⟩ : ∃ n, levels = n + 1 := ⟨levels - 1, by omega⟩
  refine read_cell.2 ⟨cell, by simp, ds, ?_, rfl⟩
  exact mapM_of_forall₂ (List.forall₂_same.2 fun _ _ _ => read_mono (List.prefix_append _ _))
    (hrefs levels (by omega))

lemma ofFields_eq_map (fields : Fields) :
    Draft.ofFields fields = fields.map fun pair => (pair.1, .ofValue pair.2) := by
  induction fields with
  | nil => rfl
  | cons pair fields ih => rw [Draft.ofFields, ih, List.map_cons]

lemma behind_length (h : Heap) : Ref.Behind h.length (.cell (some h.length)) := by
  rintro place ⟨⟩
  exact le_rfl

mutual

/-- A decoded document is kept in new cells, from which it can be read. -/
theorem keep_spec : ∀ (v : Value) (h : Heap),
    Grown h (keep v h).2 ∧ (keep v h).1.Behind h.length ∧ Reads (keep v h).2
    (keep v h).1 (.ofValue v)
  | .null, h => ⟨.refl h, nofun, 0, fun _ _ => by simp only [keep, read, Draft.ofValue]⟩
  | .bool _, h => ⟨.refl h, nofun, 0, fun _ _ => by simp only [keep, read, Draft.ofValue]⟩
  | .num _, h => ⟨.refl h, nofun, 0, fun _ _ => by simp only [keep, read, Draft.ofValue]⟩
  | .str _, h => ⟨.refl h, nofun, 0, fun _ _ => by simp only [keep, read, Draft.ofValue]⟩
  | .arr items, h => by
    obtain ⟨hgrown, hbehind, hreads⟩ := keepAll_spec items h
    rw [keep, Draft.ofValue]
    exact ⟨hgrown.make hbehind (fun _ _ => nofun), (behind_length _).mono hgrown.kept.length_le,
      .make (.arr (keepAll items h).1) hreads⟩
  | .obj fields, h => by
    obtain ⟨hgrown, hin, new, hpairs, hnew, hbehind, hreads⟩ := keepFields_spec .empty fields h
    have hpairs : (keepFields .empty fields h).1.pairs = new := hpairs
    rw [keep, Draft.ofValue]
    refine ⟨hgrown.make ?_ ?_, (behind_length _).mono hgrown.kept.length_le, ?_⟩
    · rwa [Cell.refs, hpairs]
    · rintro - o ⟨⟩
      exact hin Object.inStep_empty
    · have hdraft := Reads.make (.obj (keepFields .empty fields h).1) (by rwa [Cell.refs, hpairs])
      have hkeys : fields.map Prod.fst = (Draft.ofFields fields).map Prod.fst := by
        simp [ofFields_eq_map, Function.comp_def]
      rwa [Cell.draft, hpairs, hnew, hkeys, ← List.unzip_fst, ← List.unzip_snd,
        List.zip_unzip] at hdraft

theorem keepAll_spec : ∀ (vs : List Value) (h : Heap), Grown h (keepAll vs h).2 ∧
    (∀ r ∈ (keepAll vs h).1, r.Behind h.length) ∧
    List.Forall₂ (Reads (keepAll vs h).2) (keepAll vs h).1 (Draft.ofItems vs)
  | [], h => ⟨.refl h, nofun, .nil⟩
  | v :: vs, h => by
    obtain ⟨hgrown, hbehind, hreads⟩ := keep_spec v h
    obtain ⟨hgrown', hbehind', hreads'⟩ := keepAll_spec vs (keep v h).2
    rw [keepAll, Draft.ofItems]
    refine ⟨hgrown.trans hgrown', List.forall_mem_cons.2 ⟨hbehind, fun r hr => ?_⟩,
      .cons (hreads.mono hgrown'.kept) hreads'⟩
    exact (hbehind' r hr).mono hgrown.kept.length_le

theorem keepFields_spec : ∀ (o : Object) (fields : Fields) (h : Heap),
    Grown h (keepFields o fields h).2 ∧ (o.InStep → (keepFields o fields h).1.InStep) ∧
    ∃ new, (keepFields o fields h).1.pairs = o.pairs ++ new ∧
      new.map Prod.fst = fields.map Prod.fst ∧ (∀ r ∈ new.map Prod.snd, r.Behind h.length) ∧
      List.Forall₂ (Reads (keepFields o fields h).2) (new.map Prod.snd)
      ((Draft.ofFields fields).map Prod.snd)
  | o, [], h => ⟨.refl h, id, [], by simp [keepFields], rfl, nofun, .nil⟩
  | o, (key, v) :: rest, h => by
    obtain ⟨hgrown, hbehind, hreads⟩ := keep_spec v h
    obtain ⟨hgrown', hin, new, hpairs, hkeys, hbehind', hreads'⟩ :=
      keepFields_spec (o.append key (keep v h).1) rest (keep v h).2
    rw [keepFields, Draft.ofFields]
    refine ⟨hgrown.trans hgrown', fun ho => hin (ho.append key _),
      (key, (keep v h).1) :: new, ?_, ?_,
      List.forall_mem_cons.2 ⟨hbehind, fun r hr => ?_⟩, .cons (hreads.mono hgrown'.kept) hreads'⟩
    · rw [hpairs, Object.append, List.append_assoc, List.singleton_append]
    · simp [hkeys]
    · exact (hbehind' r hr).mono hgrown.kept.length_le

end

lemma rel_getElem? {α β : Type} {R : α → β → Prop} {xs : List α} {ys : List β}
    (hxy : List.Forall₂ R xs ys) (i : Nat) : Option.Rel R xs[i]? ys[i]? := by
  induction hxy generalizing i with
  | nil => exact .none
  | cons hhead _ ih =>
    cases i with
    | zero => exact .some hhead
    | succ i => exact ih i

/-- With the same keys, the overlay leads to what is the last value by the pairs. -/
lemma Object.InStep.rel_get? {R : Ref → Value → Prop} {o : Object} (ho : o.InStep) {fields : Fields}
    (hkeys : o.pairs.map Prod.fst = fields.map Prod.fst)
    (hvalues : List.Forall₂ R (o.pairs.map Prod.snd) (fields.map Prod.snd)) (key : Bytes) :
    Option.Rel R (o.get? key) (fields.get? key) := by
  have hget : fields.get? key = (o.place? key).bind fun i => (fields.map Prod.snd)[i]? := by
    obtain hnot | ⟨front, old, back, rfl, hback⟩ := Fields.notMem_or_exists_last fields key
    · rw [ho.place?_of_notMem (hkeys ▸ hnot), Fields.get?, Fields.foldl_of_notMem hnot]
      rfl
    · rw [ho.place?_of_last (front.map Prod.fst) (by simp [hkeys]) hback, Fields.get?_of_last hback]
      simp
  rw [hget, Object.get?]
  cases o.place? key with
  | none => exact .none
  | some i => simpa using rel_getElem? hvalues i

/-- Asking a decoded object is asking the pairs of the document. -/
lemma keep_get? (fields : Fields) (h : Heap) :
    ∃ place o, (keep (.obj fields) h).1 = .cell (some place) ∧
    (keep (.obj fields) h).2[place]? = some (.obj o) ∧ ∀ key,
      Option.Rel (fun r v => Reads (keep (.obj fields) h).2 r (.ofValue v)) (o.get? key)
      (fields.get? key) := by
  obtain ⟨-, hin, new, hpairs, hkeys, -, hreads⟩ := keepFields_spec .empty fields h
  have hpairs : (keepFields .empty fields h).1.pairs = new := hpairs
  rw [keep]
  refine ⟨_, _, rfl, List.getElem?_concat_length, (hin Object.inStep_empty).rel_get?
    (by rw [hpairs, hkeys]) ?_⟩
  rw [ofFields_eq_map, List.map_map] at hreads
  rw [hpairs, List.forall₂_map_right_iff]
  rw [List.forall₂_map_right_iff] at hreads
  exact hreads.imp fun _ _ hr => hr.mono (List.prefix_append _ _)

/-! ## Copies -/

/-- In a heap that has grown, a value is held as another was in the heap before, in cells of its
own. -/
structure IsCopy (h : Heap) (v : Ref) (h' : Heap) (w : Ref) : Prop where
  behind : w.Behind h.length
  same : ∀ levels d, h.read levels v = some d → h'.read levels w = some d

lemma IsCopy.mono {h₁ : Heap} (hcopy : IsCopy h v h' w) (hkept : h₁ <+: h) (hkept' : h' <+: h'') :
    IsCopy h₁ v h'' w where
  behind := hcopy.behind.mono hkept.length_le
  same levels d hd := read_mono hkept' (hcopy.same levels d (read_mono hkept hd))

lemma copyAll_spec {copy : Ref → Heap → Option (Ref × Heap)}
    (hcopy : ∀ v h r, copy v h = some r → Grown h r.2 ∧ IsCopy h v r.2 r.1)
    {vs : List Ref} {h : Heap}
    {r : List Ref × Heap} (hr : copyAll copy vs h = some r) :
    Grown h r.2 ∧ List.Forall₂ (fun v w => IsCopy h v r.2 w) vs r.1 := by
  induction vs generalizing h r with
  | nil =>
    obtain rfl := Option.some.inj hr
    exact ⟨.refl h, .nil⟩
  | cons v vs ih =>
    simp only [copyAll, bind, pure, Option.bind_eq_some_iff] at hr
    obtain ⟨one, hone, rest, hrest, heq⟩ := hr
    obtain rfl := Option.some.inj heq
    obtain ⟨hgrown, hv⟩ := hcopy v h one hone
    obtain ⟨hgrown', hvs⟩ := ih hrest
    refine ⟨hgrown.trans hgrown', .cons (hv.mono (List.prefix_refl h) hgrown'.kept) ?_⟩
    exact hvs.imp fun _ _ hw => hw.mono hgrown.kept (List.prefix_refl _)

namespace Cell

lemma refs_renew {refs : List Ref} (hlength : refs.length = cell.refs.length) :
    (cell.renew refs).refs = refs := by
  cases cell with
  | arr items => rfl
  | obj o => exact List.map_snd_zip (by simpa [Cell.refs] using hlength.le)

lemma draft_renew {refs : List Ref} (hlength : refs.length = cell.refs.length) (ds : List Draft) :
    (cell.renew refs).draft ds = cell.draft ds := by
  cases cell with
  | arr items => rfl
  | obj o =>
    have hkeys : ((o.pairs.map Prod.fst).zip refs).map Prod.fst = o.pairs.map Prod.fst :=
      List.map_fst_zip (by simpa [Cell.refs] using hlength.ge)
    simp only [renew, draft, hkeys]

lemma inStep_renew {refs : List Ref} (hlength : refs.length = cell.refs.length)
    (hcell : ∀ o, cell = .obj o → o.InStep) : ∀ o, cell.renew refs = .obj o → o.InStep := by
  cases cell with
  | arr items => nofun
  | obj o =>
    rintro - ⟨⟩
    refine (hcell o rfl).congr (List.map_fst_zip ?_) (by simp)
    simpa [Cell.refs] using hlength.ge

end Cell

/-- A copy has its own cells, all behind those that were there, and reads as what was copied. -/
lemma clone_spec {r : Ref × Heap} (hr : clone v h = some r) : Grown h r.2 ∧ IsCopy h v r.2 r.1 := by
  refine clone.partial_correctness (fun v h r => Grown h r.2 ∧ IsCopy h v r.2 r.1) ?_ v h r hr
  intro copy hcopy v h r hr
  rcases v with _ | _ | _ | _ | _ | place
  case cell.some =>
    simp only [cloneWith, bind, pure, Option.bind_eq_some_iff] at hr
    obtain ⟨cell, hcell, ⟨refs, h'⟩, hrefs, heq⟩ := hr
    obtain rfl := Option.some.inj heq
    obtain ⟨hgrown, hcopies⟩ := copyAll_spec hcopy hrefs
    have hlength : refs.length = cell.refs.length := hcopies.length_eq.symm
    have hbehind : ∀ r ∈ (cell.renew refs).refs, r.Behind h.length := by
      rw [Cell.refs_renew hlength]
      exact ((List.forall₂_and_left _ _).1 (hcopies.flip.imp fun _ _ hw => ⟨hw.behind, hw⟩)).1
    refine ⟨hgrown.make hbehind fun hin => Cell.inStep_renew hlength ?_,
      (behind_length _).mono hgrown.kept.length_le, ?_⟩
    · rintro o rfl
      exact hin o (List.mem_of_getElem? hcell)
    · rintro (_ | levels) d hd
      · cases hd
      · obtain ⟨cell', hcell', ds, hds, rfl⟩ := read_cell.1 hd
        obtain rfl : cell' = cell := Option.some.inj (hcell'.symm.trans hcell)
        refine read_cell.2 ⟨cell'.renew refs, by simp [make], ds, ?_, Cell.draft_renew hlength ds⟩
        rw [Cell.refs_renew hlength]
        refine mapM_of_forall₂ (hcopies.imp fun _ _ hw z hz => ?_) hds
        exact read_mono (List.prefix_append _ _) (hw.same levels z hz)
  all_goals
    obtain rfl := Option.some.inj hr
    exact ⟨.refl h, nofun, fun _ _ => id⟩

/-- What can be read can be copied. -/
lemma exists_clone {levels : Nat} {d : Draft} (hd : h.read levels v = some d) :
    ∃ r, clone v h = some r := by
  induction levels generalizing v h d with
  | zero =>
    rcases v with _ | _ | _ | _ | _ | _
    case cell.some => cases hd
    all_goals exact ⟨_, clone.eq_1 _ _⟩
  | succ levels ih =>
    rcases v with _ | _ | _ | _ | _ | place
    case cell.some =>
      obtain ⟨cell, hcell, ds, hds, -⟩ := read_cell.1 hd
      have hall : ∀ (vs : List Ref) (ds : List Draft) (h : Heap), vs.mapM
          (h.read levels) = some ds → ∃ r, copyAll clone vs h = some r := by
        intro vs
        induction vs with
        | nil => exact fun _ h _ => ⟨([], h), rfl⟩
        | cons v vs ihs =>
          intro ds h hds
          simp only [List.mapM_cons, bind, pure, Option.bind_eq_some_iff] at hds
          obtain ⟨d, hd, ds, hds, -⟩ := hds
          obtain ⟨one, hone⟩ := ih hd
          have hkept := (clone_spec hone).1.kept
          obtain ⟨rest, hrest⟩ := ihs ds one.2
            (mapM_of_forall₂ (List.forall₂_same.2 fun _ _ _ => read_mono hkept) hds)
          exact ⟨(one.1 :: rest.1, rest.2), by simp [copyAll, hone, hrest]⟩
      obtain ⟨copies, hcopies⟩ := hall cell.refs ds h hds
      exact ⟨_, by rw [clone.eq_1, cloneWith, hcell]; simp [hcopies]; rfl⟩
    all_goals exact ⟨_, clone.eq_1 _ _⟩

/-- The places of arrays and objects that can be come to from a value. -/
inductive Reaches (h : Heap) (v : Ref) : Nat → Prop where
  | here {place : Nat} : v = .cell (some place) → Reaches h v place
  | deeper {place next : Nat} {cell : Cell} : Reaches h v place → h[place]? = some cell →
      Ref.cell (some next) ∈ cell.refs → Reaches h v next

lemma IsCopy.le_of_reaches (hcopy : IsCopy h v h' w) (hgrown : Grown h h')
    (hplace : Reaches h' w place) : h.length ≤ place := by
  induction hplace with
  | here hw => exact hcopy.behind _ hw
  | deeper _ hcell hnext ih => exact hgrown.behind _ _ ih hcell _ hnext _ rfl

/-! ## Runs -/

lemma inStep_change {f : Object → Object} (hf : ∀ o : Object, o.InStep → (f o).InStep)
    (hin : h.InStep) {r : Ref × Heap} (hr : change place f h = some r) : r.2.InStep := by
  rw [change] at hr
  split at hr
  case h_1 o hcell =>
    obtain rfl := Option.some.inj hr
    intro changed hchanged
    obtain hold | hnew := List.mem_or_eq_of_mem_set hchanged
    · exact hin changed hold
    · obtain rfl : changed = f o := by injection hnew
      exact hf o (hin o (List.mem_of_getElem? hcell))
  case h_2 => cases hr

/-- A step keeps all objects in step. -/
lemma inStep_exec {s : Step} (hin : h.InStep) {r : Ref × Heap} (hr : s.exec h = some r) :
    r.2.InStep := by
  have hmake : ∀ o : Object, o.InStep → (make (.obj o) h).2.InStep := by
    rintro o ho p hp
    obtain hold | hnew := List.mem_append.1 hp
    · exact hin p hold
    · obtain rfl : p = o := by simpa using hnew
      exact ho
  cases s with
  | new =>
    obtain rfl := Option.some.inj hr
    exact hmake _ Object.inStep_empty
  | zero =>
    obtain rfl := Option.some.inj hr
    exact hmake _ Object.inStep_zero
  | decode v =>
    obtain rfl := Option.some.inj hr
    exact (keep_spec v h).1.inStep hin
  | append place key v => exact inStep_change (fun o ho => ho.append key v) hin hr
  | set place key v => exact inStep_change (fun o ho => ho.set key v) hin hr
  | clone v => exact (clone_spec hr).1.inStep hin

/-- A step that changes no object in front of `k` leaves the cells in front of it as they are. -/
lemma prefix_exec {s : Step} (hkept : h <+: h') (hs : ∀ place ∈ s.changes?, h.length ≤ place)
    {r : Ref × Heap} (hr : s.exec h' = some r) : h <+: r.2 := by
  have hchange : ∀ place f, h.length ≤ place → change place f h' = some r → h <+: r.2 := by
    intro place f hplace hr
    rw [change] at hr
    split at hr
    case h_1 o hcell =>
      obtain rfl := Option.some.inj hr
      obtain ⟨new, rfl⟩ := hkept
      rw [List.set_append_right _ _ hplace]
      exact List.prefix_append _ _
    case h_2 => cases hr
  cases s with
  | new | zero =>
    obtain rfl := Option.some.inj hr
    exact hkept.trans (List.prefix_append _ _)
  | decode v =>
    obtain rfl := Option.some.inj hr
    exact hkept.trans (keep_spec v h').1.kept
  | append place key v | set place key v => exact hchange place _ (hs place rfl) hr
  | clone v => exact hkept.trans (clone_spec hr).1.kept

/-- What each step of a run keeps is kept by the run. -/
lemma run_induction {P : Heap → Prop} {steps : List Step}
    (hstep : ∀ s ∈ steps, ∀ h r, P h → s.exec h = some r → P r.2) (hh : P h)
    (hrun : run h steps = some h') : P h' := by
  induction steps generalizing h with
  | nil =>
    obtain rfl := Option.some.inj hrun
    exact hh
  | cons s steps ih =>
    simp only [run, List.foldlM_cons, bind, Option.bind_eq_some_iff, Option.map_eq_some_iff] at hrun
    obtain ⟨_, ⟨r, hr, rfl⟩, hrest⟩ := hrun
    rw [List.forall_mem_cons] at hstep
    exact ih hstep.2 (hstep.1 h r hh hr) hrest

/-- **Lookups agree with the pairs.**  Whatever was done to objects, of each of them: a key is not
bound, and then asking fails and setting adds one pair, or asking yields the value of its last pair
and setting changes that value alone; and the keys are the bound ones, each once and in the order of
their first pairs.

A decoded document is kept as it is, and its objects are asked as the pairs of the document are.  A
copy of what can be read exists and reads the same; all of its cells are new, and nothing that is
done to new cells changes those that were there. -/
theorem lookups_follow_pairs (steps : List Step) (h : Heap) (hrun : run [] steps = some h) :
    (∀ o, .obj o ∈ h →
      (∀ key v, (key ∉ o.pairs.map Prod.fst ∧ o.get? key = none ∧
          (o.set key v).pairs = o.pairs ++ [(key, v)]) ∨
        ∃ front old back, o.pairs = front ++ (key, old) :: back ∧ key ∉ back.map Prod.fst ∧
          o.get? key = some old ∧ (o.set key v).pairs = front ++ (key, v) :: back) ∧
      (∀ key, key ∈ o.keys ↔ key ∈ o.pairs.map Prod.fst) ∧
      o.keys.Pairwise fun a b => (o.pairs.map Prod.fst).idxOf a < (o.pairs.map Prod.fst).idxOf b) ∧
    (∀ v, Reads (keep v h).2 (keep v h).1 (.ofValue v)) ∧
    (∀ fields : Fields, ∃ place o, (keep (.obj fields) h).1 = .cell (some place) ∧
      (keep (.obj fields) h).2[place]? = some (.obj o) ∧ ∀ key,
        Option.Rel (fun r v => Reads (keep (.obj fields) h).2 r (.ofValue v)) (o.get? key)
        (fields.get? key)) ∧
    (∀ v levels d, h.read levels v = some d → ∃ r, clone v h = some r) ∧
    ∀ v w h', clone v h = some (w, h') →
      (∀ levels d, h.read levels v = some d → h'.read levels w = some d) ∧
      (∀ place, Reaches h' w place → h.length ≤ place) ∧
      ∀ more h'', run h' more = some h'' → (∀ s ∈ more, ∀ place ∈ s.changes?, h.length ≤ place) →
        h <+: h'' := by
  have hin : h.InStep :=
    run_induction (fun _ _ _ _ hin hr => inStep_exec hin hr)
      (fun _ ho => absurd ho List.not_mem_nil) hrun
  refine ⟨fun o ho => ⟨(hin o ho).divided_at_last, Fields.distinct_listed _⟩, fun v =>
    (keep_spec v h).2.2,
    fun fields => keep_get? fields h, fun v levels d => exists_clone, fun v w h' hclone => ?_⟩
  obtain ⟨hgrown, hcopy⟩ := clone_spec hclone
  refine ⟨hcopy.same, fun place => hcopy.le_of_reaches hgrown, fun more h'' hmore hplaces => ?_⟩
  exact run_induction (fun s hs h r hkept => prefix_exec hkept (hplaces s hs)) hgrown.kept hmore

/-- A zero value gets two pairs with one key, and a copy of it is set.  The copy is asked and has
changed, and the object has not. -/
theorem zero_value_unchanged_by_copy :
    let steps : List Step := [.zero, .append 0 "k" .null, .append 0 "k" (.bool true)]
    let copied : Object := ⟨[("k", .null), ("k", .bool true)], some [("k", 1), ("k", 0)]⟩
    let more : List Step := [.set 1 "k" (.num "1")]
    run [] steps = some [.obj copied] ∧ clone (.cell (some 0)) [.obj copied] =
      some (.cell (some 1), [.obj copied, .obj copied]) ∧
    (∀ s ∈ more, ∀ place ∈ s.changes?, 1 ≤ place) ∧
    ∃ changed, run [.obj copied, .obj copied] more = some [.obj copied, .obj changed] ∧
      changed.get? "k" = some (.num "1") ∧ copied.get? "k" = some (.bool true) ∧
      [Cell.obj copied] <+: [.obj copied, .obj changed] := by
  intro steps copied more
  have hrun : run [] steps = some [.obj copied] := by decide
  have hclone : clone (.cell (some 0)) [.obj copied] =
      some (.cell (some 1), [.obj copied, .obj copied]) := by
    rw [clone.eq_1, cloneWith]
    simp [copied, Cell.refs, copyAll, clone.eq_1, cloneWith, make, Cell.renew]
  have hplaces : ∀ s ∈ more, ∀ place ∈ s.changes?, 1 ≤ place := by
    rintro s hs place hplace
    obtain rfl := List.mem_singleton.1 hs
    obtain rfl := Option.some.inj hplace
    exact le_rfl
  have hmore : run [.obj copied, .obj copied] more =
      some [.obj copied, .obj (copied.set "k" (.num "1"))] := by
    decide
  refine ⟨hrun, hclone, hplaces, copied.set "k" (.num "1"), hmore, by decide, by decide, ?_⟩
  exact ((lookups_follow_pairs steps _ hrun).2.2.2.2 _ _ _ hclone).2.2 more _ hmore hplaces

end Heap

end UiCodegen
