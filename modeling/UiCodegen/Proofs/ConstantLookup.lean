import UiCodegen.EnumTable.Sources
import UiCodegen.Proofs.Declarations

/-!
# Finding constants

A table of constants keeps, of each name, the first entry that was listed.  It is sorted by hash and
then by name, and a search goes by the hash alone, so that where hashes collide it ends in front of
all entries with that hash. The walk that follows meets exactly these (`walk_eq_filter`), and an
entry of the name is among them.  Whatever the hash is, a lookup therefore finds the first entry
that was listed under a name, and nothing under any other.

Hash and name of an entry are compared through `Entry.key`, its place in a linear order.
-/

namespace UiCodegen

variable {a b e : Entry}

lemma Bytes.lt_iff {a b : Bytes} : Bytes.lt a b = true ↔ a.map UInt8.toNat < b.map UInt8.toNat := by
  fun_induction Bytes.lt a b with
  | case1 => simp
  | case2 => simp
  | case3 => simp
  | case4 x xs y ys heq ih =>
    have hxy : x = y := by simpa using heq
    simp [ih, hxy]
  | case5 x xs y ys hne =>
    have hxy : x.toNat ≠ y.toNat := fun h => hne (by simpa using UInt8.toNat_inj.1 h)
    simp [List.cons_lt_cons_iff, hxy, UInt8.lt_iff_toNat_lt]

namespace EnumTable

/-! ## The order of entries -/

/-- `a` stands in front of `b`: its hash is lower, or the hashes are equal and its name is lower. -/
def Entry.Before (a b : Entry) :
    Prop := a.hash < b.hash ∨ a.hash = b.hash ∧ Bytes.lt a.name b.name = true

def Entry.key (e : Entry) : ℕ ×ₗ List ℕ := toLex (e.hash.toNat, e.name.map UInt8.toNat)

lemma Entry.before_iff : a.Before b ↔ a.key < b.key := by
  simp [Entry.Before, Entry.key, Prod.Lex.toLex_lt_toLex, Bytes.lt_iff, UInt32.lt_iff_toNat_lt,
    UInt32.toNat_inj]

lemma Entry.le_iff : a.le b = true ↔ a.key ≤ b.key := by
  have hbefore : b.key < a.key ↔ b.Before a := Entry.before_iff.symm
  rw [← not_lt, hbefore, Entry.Before, Entry.le]
  by_cases hhash : a.hash = b.hash
  · simp [hhash, Bytes.le]
  · have hne : b.hash ≠ a.hash := Ne.symm hhash
    have hlt : a.hash < b.hash ↔ ¬ b.hash < a.hash := by
      rw [UInt32.lt_iff_toNat_lt, UInt32.lt_iff_toNat_lt]
      have hnat : a.hash.toNat ≠ b.hash.toNat := fun h => hhash (UInt32.toNat_inj.1 h)
      omega
    simp [hhash, hne, hlt]

lemma Entry.hash_le_of_key_le (h : a.key ≤ b.key) : a.hash ≤ b.hash := by
  rw [UInt32.le_iff_toNat_le]
  rcases Prod.Lex.le_iff.1 h with hlt | ⟨heq, -⟩
  · exact le_of_lt hlt
  · exact le_of_eq heq

lemma Entry.name_eq_of_key_eq (h : a.key = b.key) : a.name = b.name := by
  have hnames : a.name.map UInt8.toNat = b.name.map UInt8.toNat := congrArg (fun k => (ofLex k).2) h
  exact List.map_injective_iff.2 (fun _ _ => UInt8.toNat_inj.1) hnames

/-! ## Searching by halves -/

/-- A search ends at the first place at which `p` holds, if from there on it holds up to `hi`. -/
lemma search_spec {p : ℕ → Bool} {lo hi : ℕ} (hle : lo ≤ hi)
    (hp : ∀ i j, i ≤ j → j < hi → p i = true → p j = true) :
    search p lo hi ≤ hi ∧ (∀ i, lo ≤ i → i < search p lo hi → p i = false) ∧
      (search p lo hi < hi → p (search p lo hi) = true) := by
  fun_induction search p lo hi with
  | case1 lo hi hlt hmid ih =>
    obtain ⟨hend, hbelow, hat⟩ := ih (by omega) fun i j hij hj => hp i j hij (by omega)
    refine ⟨by omega, hbelow, fun _ => ?_⟩
    by_cases hsame : search p lo ((lo + hi) / 2) = (lo + hi) / 2
    · rw [hsame]
      exact hmid
    · exact hat (by omega)
  | case2 lo hi hlt hmid ih =>
    obtain ⟨hend, hbelow, hat⟩ := ih (by omega) hp
    refine ⟨hend, fun i hlo hsearch => ?_, hat⟩
    by_cases hlow : i ≤ (lo + hi) / 2
    · -- If `p` held here, it would hold at the middle as well.
      cases hpi : p i with
      | false => rfl
      | true => exact absurd (hp i _ hlow (by omega) hpi) hmid
    · exact hbelow i (by omega) hsearch
  | case3 lo hi hge =>
    exact ⟨hle, fun i hlo hi => absurd hlo (by omega), fun hlt => absurd hlt hge⟩

section Walk

variable {entries : List Entry} (hsorted : entries.Pairwise fun a b => a.key ≤ b.key) (h : UInt32)

include hsorted

/-- The hashes behind a place are at least as high as the hash there. -/
lemma any_le_hash_mono (i j : ℕ) (hij : i ≤ j) (hj : j < entries.length)
    (hi : entries[i]?.any (h ≤ ·.hash) = true) : entries[j]?.any (h ≤ ·.hash) = true := by
  have hi' : i < entries.length := lt_of_le_of_lt hij hj
  have hkeys : entries[i].key ≤ entries[j].key := by
    rcases eq_or_lt_of_le hij with rfl | hlt
    · exact le_rfl
    · exact List.pairwise_iff_getElem.1 hsorted i j hi' hj hlt
  have hhash : h ≤ entries[i].hash := by simpa [hi'] using hi
  simpa [hj] using UInt32.le_trans hhash (Entry.hash_le_of_key_le hkeys)

lemma takeWhile_eq_filter (hlow : ∀ e ∈ entries, h ≤ e.hash) :
    entries.takeWhile (·.hash == h) = entries.filter (·.hash == h) := by
  induction entries with
  | nil => rfl
  | cons e rest ih =>
    rw [List.pairwise_cons] at hsorted
    rw [List.forall_mem_cons] at hlow
    by_cases heq : e.hash = h
    · rw [List.takeWhile_cons_of_pos (by simpa using heq), List.filter_cons_of_pos
        (by simpa using heq), ih hsorted.2 hlow.2]
    · have hnone : ∀ e' ∈ e :: rest, ¬ (e'.hash == h) = true := by
        intro e' he' heq'
        have hle : e.hash ≤ e'.hash := by
          rcases List.mem_cons.1 he' with rfl | hrest
          · exact UInt32.le_refl _
          · exact Entry.hash_le_of_key_le (hsorted.1 e' hrest)
        rw [beq_iff_eq] at heq'
        exact heq (UInt32.le_antisymm (heq' ▸ hle) hlow.1)
      rw [List.takeWhile_cons_of_neg (by simpa using heq), List.filter_eq_nil_iff.2 hnone]

/-- The walk behind a search meets the entries with the hash, all of them and no others. -/
lemma walk_eq_filter :
    (entries.drop (search (fun i => entries[i]?.any (h ≤ ·.hash)) 0 entries.length)).takeWhile
      (·.hash == h) = entries.filter (·.hash == h) := by
  obtain ⟨hend, hbelow, hat⟩ := search_spec (Nat.zero_le _) (any_le_hash_mono hsorted h)
  set start := search (fun i => entries[i]?.any (h ≤ ·.hash)) 0 entries.length
  have hfront : (entries.take start).filter (·.hash == h) = [] := by
    rw [List.filter_eq_nil_iff]
    intro e he heq
    obtain ⟨i, hi, rfl⟩ := List.mem_take_iff_getElem.1 he
    have hlow := hbelow i (Nat.zero_le i) (by omega)
    have hi' : i < entries.length := by omega
    rw [beq_iff_eq] at heq
    simp [hi', heq] at hlow
  have hback : ∀ e ∈ entries.drop start, h ≤ e.hash := by
    intro e he
    obtain ⟨i, hi, rfl⟩ := List.mem_drop_iff_getElem.1 he
    have hstart := hat (by omega)
    have hi' : start + i < entries.length := by omega
    have hhigh := any_le_hash_mono hsorted h start (start + i) (by omega) hi' hstart
    simpa [hi'] using hhigh
  calc (entries.drop start).takeWhile (·.hash == h)
      = (entries.drop start).filter (·.hash == h) :=
        takeWhile_eq_filter (hsorted.sublist (List.drop_sublist _ _)) h hback
    _ = (entries.take start).filter (·.hash == h) ++ (entries.drop start).filter (·.hash == h) := by
        rw [hfront, List.nil_append]
    _ = entries.filter (·.hash == h) := by rw [← List.filter_append, List.take_append_drop]

end Walk

/-! ## What a table holds -/

def Entry.hashedBy (hash : Bytes → UInt32) (e : Entry) : Entry := { e with hash := hash e.name }

lemma firstOfEach_eq (entries : List Entry) :
    firstOfEach entries = Api.firstOfEachName Entry.name
    (entries.filter fun e => !e.name.isEmpty) := by
  rw [firstOfEach, Api.firstOfEachName, List.foldl_filter]
  congr 2
  funext kept e
  cases e.name.isEmpty <;> rfl

lemma nodup_firstOfEach (entries : List Entry) : ((firstOfEach entries).map Entry.name).Nodup := by
  rw [firstOfEach_eq]
  exact Api.nodup_firstOfEachName _ _

lemma mem_firstOfEach {entries : List Entry} :
    e ∈ firstOfEach entries ↔ e.name ≠ [] ∧ entries.find? (·.name == e.name) = some e := by
  rw [firstOfEach_eq, Api.mem_firstOfEachName]
  by_cases hname : e.name = []
  · have hnone : (entries.filter fun e => !e.name.isEmpty).find? (·.name == e.name) = none := by
      rw [List.find?_eq_none]
      intro x hx heq
      have hx' : x.name ≠ [] := by simpa using (List.mem_filter.1 hx).2
      exact hx' ((beq_iff_eq.1 heq).trans hname)
    rw [hnone]
    exact ⟨fun h => absurd h.symm (Option.some_ne_none e), fun h => absurd hname h.1⟩
  · have hsame : (entries.filter fun e => !e.name.isEmpty).find? (·.name == e.name) =
        entries.find? (·.name == e.name) := by
      rw [List.find?_filter]
      congr 1
      funext x
      by_cases hx : x.name = e.name <;> simp [hx, hname]
    rw [hsame]
    exact ⟨fun h => ⟨hname, h⟩, fun h => h.2⟩

section Build

variable (entries : List Entry) (hash : Bytes → UInt32)

lemma perm_build :
    (build entries hash).entries.Perm ((firstOfEach entries).map (Entry.hashedBy hash)) :=
  List.mergeSort_perm _ _

lemma names_build_perm :
    ((build entries hash).entries.map Entry.name).Perm ((firstOfEach entries).map Entry.name) := by
  have hnames := (perm_build entries hash).map Entry.name
  rwa [List.map_map] at hnames

lemma nodup_build : ((build entries hash).entries.map Entry.name).Nodup :=
  (names_build_perm entries hash).nodup_iff.2 (nodup_firstOfEach entries)

variable {entries hash}

lemma mem_build :
    e ∈ (build entries hash).entries ↔ ∃ x ∈ firstOfEach entries, x.hashedBy hash = e := by
  rw [(perm_build entries hash).mem_iff, List.mem_map]

lemma hash_of_mem_build (he : e ∈ (build entries hash).entries) : e.hash = hash e.name := by
  obtain ⟨x, -, rfl⟩ := mem_build.1 he
  rfl

variable (entries hash)

lemma sorted_build : (build entries hash).entries.Pairwise fun a b => a.key ≤ b.key := by
  have htrans : ∀ a b c : Entry, a.le b = true → b.le c = true → a.le c = true :=
    fun a b c hab hbc =>
    Entry.le_iff.2 ((Entry.le_iff.1 hab).trans (Entry.le_iff.1 hbc))
  have htotal : ∀ a b : Entry, (a.le b || b.le a) = true := fun a b => by
    simpa [Entry.le_iff] using le_total a.key b.key
  have hsorted :=
    List.pairwise_mergeSort htrans htotal ((firstOfEach entries).map (Entry.hashedBy hash))
  exact hsorted.imp Entry.le_iff.1

lemma strictlySorted_build : (build entries hash).entries.Pairwise Entry.Before := by
  have hnames := List.pairwise_map.1 (nodup_build entries hash)
  refine ((sorted_build entries hash).and hnames).imp fun {a b} hab => ?_
  exact Entry.before_iff.2 (lt_of_le_of_ne hab.1 fun hkey => hab.2 (Entry.name_eq_of_key_eq hkey))

/-- A table holds the names that are not empty. -/
lemma mem_names_build {name : Bytes} :
    name ∈ (build entries hash).entries.map Entry.name ↔ name ≠ [] ∧
    name ∈ entries.map Entry.name := by
  rw [(names_build_perm entries hash).mem_iff, firstOfEach_eq, Api.mem_names_firstOfEachName]
  simp only [List.mem_map, List.mem_filter, Bool.not_eq_true', List.isEmpty_eq_false_iff]
  constructor
  · rintro ⟨e, ⟨he, hne⟩, rfl⟩
    exact ⟨hne, e, he, rfl⟩
  · rintro ⟨hne, e, he, rfl⟩
    exact ⟨e, ⟨he, hne⟩, rfl⟩

/-- Each of these names is held once. -/
lemma count_build (name : Bytes) : ((build entries hash).entries.map Entry.name).count name =
      if name ≠ [] ∧ name ∈ entries.map Entry.name then 1 else 0 := by
  rw [(nodup_build entries hash).count]
  simp only [mem_names_build]

lemma find?_build (name : Bytes) : (build entries hash).entries.find? (·.name == name) =
      if name = [] then none else (entries.find? (·.name == name)).map (Entry.hashedBy hash) := by
  refine Option.ext fun e => ?_
  rw [Api.find?_eq_some_iff_of_nodup (nodup_build entries hash), mem_build]
  constructor
  · rintro ⟨⟨x, hx, rfl⟩, rfl⟩
    obtain ⟨hne, hfirst⟩ := mem_firstOfEach.1 hx
    have hne' : (x.hashedBy hash).name ≠ [] := hne
    rw [if_neg hne', Option.map_eq_some_iff]
    exact ⟨x, hfirst, rfl⟩
  · intro h
    by_cases hne : name = []
    · simp [hne] at h
    · rw [if_neg hne, Option.map_eq_some_iff] at h
      obtain ⟨x, hfirst, rfl⟩ := h
      have hname : x.name = name := by simpa using List.find?_some hfirst
      subst hname
      exact ⟨⟨x, mem_firstOfEach.2 ⟨hne, hfirst⟩, rfl⟩, rfl⟩

/-- A lookup misses no entry of the table. -/
lemma lookup?_build (name : Bytes) :
    (build entries hash).lookup? name = (build entries hash).entries.find? (·.name == name) := by
  rw [lookup?, walk_eq_filter (sorted_build entries hash), List.find?_filter]
  refine List.find?_congr fun e he => ?_
  have hhash : e.hash = hash e.name := hash_of_mem_build he
  by_cases hname : e.name = name
  · have hsame : e.hash = (build entries hash).hash name := hname ▸ hhash
    simp [hsame, hname]
  · simp [hname]

end Build

/-- A table is sorted strictly, holds each name once, and gives for a name the first entry that was
listed under it. Among the constants of an API the supplementary values come first, then the members
of enums, then the preprocessor definitions. -/
theorem lookup?_eq_first_listed (entries user : List Entry) (hash : Bytes → UInt32) (ix : Api.Index)
    (defines : List Bytes) :
    (build entries hash).entries.Pairwise Entry.Before ∧
      (∀ name, ((build entries hash).entries.map Entry.name).count name =
        if name ≠ [] ∧ name ∈ entries.map Entry.name then 1 else 0) ∧
      (∀ name, (build entries hash).lookup? name =
        if name = [] then none else (entries.find? (·.name == name)).map (Entry.hashedBy hash)) ∧
      ∀ name, (ofSources ix defines user hash).lookup? name =
        if name = [] then none
        else (((user.find? (·.name == name)).or ((apiEntries ix).find? (·.name == name))).or
          ((defineEntries ix defines).find? (·.name == name))).map (Entry.hashedBy hash) := by
  have hlookup : ∀ entries name, (build entries hash).lookup? name =
      if name = [] then none else (entries.find? (·.name == name)).map (Entry.hashedBy hash) :=
        fun entries name =>
    (lookup?_build entries hash name).trans (find?_build entries hash name)
  refine ⟨strictlySorted_build entries hash, count_build entries hash, hlookup entries, fun name =>
    ?_⟩
  rw [ofSources, hlookup, List.find?_append, List.find?_append]

/-- All names have one hash here: each is still found, and of two entries of one name the first. -/
example :
    let table := build [⟨0, "B", 1, true, [], [], .user⟩, ⟨0, "A", 2, true, [], [], .api⟩,
      ⟨0, "B", 3, true, [], [], .api⟩] fun _ => 7
    (table.lookup? "A").map Entry.value = some 2 ∧ (table.lookup? "B").map Entry.value = some 1 ∧
      table.lookup? "C" = none := by
  cbv

end EnumTable

end UiCodegen
