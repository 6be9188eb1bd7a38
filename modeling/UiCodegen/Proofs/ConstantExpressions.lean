import UiCodegen.Proofs.ConstantLookup
import UiCodegen.Proofs.Pieces

/-!
# Or-ed constants

A text of several names with bars between them resolves to one C expression.  It does so exactly if
each piece, without the white space around it, is a name of the table (`resolve?_eq_some_iff`).

Where the expression of a constant is its name, the C expression is the text with its white space
put in order.  A name that was found as a piece holds no bar and has no white space at its ends, so
the expression is split where it was joined (`pieces_join`) and resolves to the same constants
again.  The value is known bit by bit (`getLsbD_value`), which does not depend on the order of the
names.
-/

namespace UiCodegen

variable {s : Bytes} {t : EnumTable} {parts : List Entry}

namespace Blank

section

variable {sep : UInt8} (hsep : IsInk sep) {names : List Bytes}

include hsep

/-- Texts that are pieces themselves are found again between the octets that join them. -/
lemma pieces_join (hne : names ≠ []) (hnames : ∀ name ∈ names, Tight name ∧ sep ∉ name) :
    pieces sep (Bytes.join [32, sep, 32] names) = names := by
  induction names with
  | nil => exact absurd rfl hne
  | cons name names ih =>
    obtain ⟨⟨htight, hbar⟩, hrest⟩ := List.forall_mem_cons.1 hnames
    have hpiece : pieces sep name = [name] := by rw [pieces_of_notMem hbar, htight.trim_eq]
    cases names with
    | nil => simpa [Bytes.join] using hpiece
    | cons next names =>
      have hfront : pieces sep (name ++ [32]) = [name] := by
        rw [← pieces_trimEnd hsep, isSpace_space.trimEnd_append, pieces_trimEnd hsep, hpiece]
      have hback : ∀ s, pieces sep ([32] ++ s) = pieces sep s := fun s => by
        rw [← pieces_trimStart hsep, isSpace_space.trimStart_append, pieces_trimStart hsep]
      have hsplit : Bytes.join [32, sep, 32] (name :: next :: names) =
          (name ++ [32]) ++ sep :: ([32] ++ Bytes.join [32, sep, 32] (next :: names)) := by
        simp [Bytes.join_cons_cons]
      rw [hsplit, pieces_append, hfront, hback, ih (by simp) hrest, List.singleton_append]

end

lemma tight_of_mem_pieces {sep : UInt8} {piece : Bytes} (h : piece ∈ pieces sep s) :
    Tight piece ∧ sep ∉ piece := by
  obtain ⟨part, hpart, rfl⟩ := List.mem_map.1 h
  refine ⟨tight_trim part, fun hmem => Bytes.notMem_of_mem_splitOn part hpart ?_⟩
  obtain ⟨before, after, heq, -, -⟩ := exists_trim part
  rw [heq]
  simp [hmem]

end Blank

namespace EnumTable

/-! ## Resolving -/

lemma mapM_eq_some_iff {α β : Type} {f : α → Option β} {xs : List α} {ys : List β} :
    xs.mapM f = some ys ↔ List.Forall₂ (fun x y => f x = some y) xs ys := by
  induction xs generalizing ys with
  | nil => simp [eq_comm]
  | cons x xs ih =>
    rw [List.mapM_cons]
    cases ys with
    | nil => simp [Option.bind_eq_some_iff]
    | cons y ys => simp [Option.bind_eq_some_iff, ih]

lemma resolve?_eq_some_iff {r : Resolved} : t.resolve? s = some r ↔ Blank.trim s ≠ [] ∧ ∃ parts,
      List.Forall₂ (fun name e => t.lookup? name = some e) (Blank.pieces 124 s) parts ∧
      r = .ofParts parts := by
  have hparts : (Bytes.splitOn 124 (Blank.trim s)).mapM (fun part => t.lookup? (Blank.trim part)) =
      (Blank.pieces 124 s).mapM t.lookup? := by
    rw [← Blank.pieces_trim (by decide), Blank.pieces, List.mapM_map]
    rfl
  rw [resolve?, hparts]
  by_cases hblank : Blank.trim s = []
  · simp [hblank]
  · rw [if_neg (by simpa using hblank), Option.map_eq_some_iff]
    simp [hblank, mapM_eq_some_iff, @eq_comm _ r]

lemma lookup?_eq_some_iff {entries : List Entry} {hash : Bytes → UInt32}
    {name : Bytes} {e : Entry} :
    (build entries hash).lookup? name = some e ↔ e ∈ (build entries hash).entries ∧
    e.name = name := by
  rw [lookup?_build, Api.find?_eq_some_iff_of_nodup (nodup_build entries hash)]

/-- The constants that the pieces of a text name, in order. -/
def Named (t : EnumTable) (s : Bytes) (parts : List Entry) : Prop :=
  List.Forall₂ (fun name e => e ∈ t.entries ∧ e.name = name) (Blank.pieces 124 s) parts

lemma Named.names (h : Named t s parts) : Blank.pieces 124 s = parts.map Entry.name := by
  have hnames : List.Forall₂ (· = ·) (Blank.pieces 124 s) (parts.map Entry.name) :=
    List.forall₂_map_right_iff.2 (h.imp fun _ _ hname => hname.2.symm)
  rwa [List.forall₂_eq_eq_eq] at hnames

lemma Named.mem (h : Named t s parts) : ∀ e ∈ parts, e ∈ t.entries :=
  ((List.forall₂_and_left _ _).1 h.flip).1

lemma exists_named_iff :
    (∃ parts, Named t s parts) ↔ ∀ name ∈ Blank.pieces 124 s, name ∈ t.entries.map Entry.name := by
  unfold Named
  induction Blank.pieces 124 s with
  | nil => simp
  | cons name names ih =>
    rw [List.forall_mem_cons, ← ih, List.mem_map]
    constructor
    · rintro ⟨_ | ⟨e, parts⟩, h⟩
      · cases h
      · rw [List.forall₂_cons] at h
        exact ⟨⟨e, h.1⟩, parts, h.2⟩
    · rintro ⟨⟨e, he⟩, parts, hparts⟩
      exact ⟨e :: parts, .cons he hparts⟩

/-! ## Values -/

lemma getLsbD_foldl (parts : List Entry) (v : Int64) (i : Nat) :
    (parts.foldl (fun v e => if e.hasValue then v ||| e.value else v) v).toBitVec.getLsbD i =
      (v.toBitVec.getLsbD i || parts.any fun e => e.hasValue && e.value.toBitVec.getLsbD i) := by
  induction parts generalizing v with
  | nil => simp
  | cons e parts ih =>
    rw [List.foldl_cons, ih, List.any_cons]
    cases e.hasValue <;> simp [Bool.or_assoc]

/-- A bit of the value is set if it is set in a value that is known. -/
lemma getLsbD_value (parts : List Entry) (i : Nat) :
      (Resolved.ofParts parts).value.toBitVec.getLsbD i =
      parts.any fun e => e.hasValue && e.value.toBitVec.getLsbD i := by
  rw [Resolved.ofParts, getLsbD_foldl]
  simp

lemma value_ofParts_of_perm {parts' : List Entry} (h : parts'.Perm parts) :
    (Resolved.ofParts parts').value = (Resolved.ofParts parts).value ∧
      (Resolved.ofParts parts').hasValue = (Resolved.ofParts parts).hasValue := by
  refine ⟨Int64.toBitVec_inj.1 (BitVec.eq_of_getLsbD_eq fun i _ => ?_), h.all_eq⟩
  rw [getLsbD_value, getLsbD_value, h.any_eq]

section Stable

variable {entries : List Entry} {hash : Bytes → UInt32} {s : Bytes}

lemma resolve?_build_eq_some_iff {r : Resolved} : (build entries hash).resolve? s = some r ↔
      Blank.trim s ≠ [] ∧ ∃ parts, Named (build entries hash) s parts ∧ r = .ofParts parts := by
  simp only [resolve?_eq_some_iff, lookup?_eq_some_iff, Named]

/-- A text that names constants is not blank, since they have names. -/
lemma trim_ne_nil_of_named (h : Named (build entries hash) s parts) : Blank.trim s ≠ [] := by
  intro hblank
  have hpieces : Blank.pieces 124 s = [[]] := by
    rw [← Blank.pieces_trim (by decide), hblank]
    rfl
  have hnil : [] ∈ (build entries hash).entries.map Entry.name :=
    exists_named_iff.1 ⟨parts, h⟩ [] (by simp [hpieces])
  exact ((mem_names_build entries hash).1 hnil).1 rfl

lemma resolve?_of_named (h : Named (build entries hash) s parts) :
    (build entries hash).resolve? s = some (.ofParts parts) :=
  resolve?_build_eq_some_iff.2 ⟨trim_ne_nil_of_named h, parts, h, rfl⟩

variable (hexpr : ∀ e ∈ (build entries hash).entries, e.expr = e.name)

include hexpr

/-- The expression of named constants is made of the pieces that named them. -/
lemma c_ofParts (h : Named (build entries hash) s parts) :
    (Resolved.ofParts parts).c = Bytes.join [32, 124, 32] (Blank.pieces 124 s) := by
  have hvalues : parts.map Entry.cValue = parts.map Entry.name := by
    refine List.map_congr_left fun e he => ?_
    have hmem : e ∈ (build entries hash).entries := h.mem e he
    have hne : e.name ≠ [] := ((mem_names_build entries hash).1 (List.mem_map_of_mem hmem)).1
    rw [Entry.cValue, hexpr e hmem, if_neg (by simpa using hne)]
  have hsep : Bytes.ofString " | " = [32, 124, 32] := by decide
  rw [h.names, ← hvalues, ← hsep]
  rfl

/-- The expression names the same constants again. -/
lemma named_c (h : Named (build entries hash) s parts) :
    Named (build entries hash) (Resolved.ofParts parts).c parts := by
  have hagain : Blank.pieces 124 (Resolved.ofParts parts).c = Blank.pieces 124 s := by
    rw [c_ofParts hexpr h, Blank.pieces_join (by decide) (Blank.pieces_ne_nil _ _)]
    exact fun name hname => Blank.tight_of_mem_pieces hname
  rwa [Named, hagain]

end Stable

/-- Where the expression of each constant is its name, a text resolves exactly if it is not blank
and each of its pieces is a name of the table.  The expression it resolves to resolves to the same
again, the value is the bitwise or of the values of the parts if all are known, and the order of the
pieces changes neither the value nor whether it is known. -/
theorem resolution_is_stable (entries : List Entry) (hash : Bytes → UInt32)
    (hexpr : ∀ e ∈ (build entries hash).entries, e.expr = e.name) (s : Bytes) :
    (((build entries hash).resolve? s).isSome = true ↔ Blank.trim s ≠ [] ∧
        ∀ name ∈ Blank.pieces 124 s, name ∈ (build entries hash).entries.map Entry.name) ∧
      ∀ r, (build entries hash).resolve? s = some r →
        Named (build entries hash) s r.parts ∧ (build entries hash).resolve? r.c = some r ∧
        (r.hasValue = true ↔ ∀ e ∈ r.parts, e.hasValue = true) ∧
        (r.hasValue = true → ∀ i, r.value.toBitVec.getLsbD i = r.parts.any
          (·.value.toBitVec.getLsbD i)) ∧
        ∀ s', (Blank.pieces 124 s').Perm (Blank.pieces 124 s) →
          ∃ r', (build entries hash).resolve? s' = some r' ∧ r'.value = r.value ∧
          r'.hasValue = r.hasValue := by
  constructor
  · rw [Option.isSome_iff_exists, ← exists_named_iff]
    simp only [resolve?_build_eq_some_iff]
    constructor
    · rintro ⟨r, hne, parts, hparts, -⟩
      exact ⟨hne, parts, hparts⟩
    · rintro ⟨hne, parts, hparts⟩
      exact ⟨_, hne, parts, hparts, rfl⟩
  · intro r hr
    obtain ⟨-, parts, hparts, rfl⟩ := resolve?_build_eq_some_iff.1 hr
    refine ⟨hparts, resolve?_of_named (named_c hexpr hparts), List.all_eq_true, fun hknown i =>
      ?_, fun s' hperm => ?_⟩
    · rw [getLsbD_value, Bool.eq_iff_iff, List.any_eq_true, List.any_eq_true]
      refine exists_congr fun e => and_congr_right fun he => ?_
      have hvalue : e.hasValue = true := List.all_eq_true.1 hknown e he
      rw [hvalue, Bool.true_and]
    · obtain ⟨parts', hparts', hpermuted⟩ := List.perm_comp_forall₂ hperm hparts
      exact ⟨_, resolve?_of_named hparts', value_ofParts_of_perm hpermuted⟩

/-- Three constants, one with a bar in its name, which no piece can be. -/
def barredTable : EnumTable :=
  build [⟨0, "LV_A", 1, true, "LV_A", [], .api⟩, ⟨0, "LV|B", 2, true, "LV|B", [], .api⟩,
    ⟨0, "LV_C", -8, true, "LV_C", [], .user⟩] fun _ => 7

lemma expr_barredTable : ∀ e ∈ barredTable.entries, e.expr = e.name := by
  intro e he
  obtain ⟨x, hx, rfl⟩ := mem_build.1 he
  have hmem := List.mem_of_find?_eq_some (mem_firstOfEach.1 hx).2
  simp only [List.mem_cons, List.not_mem_nil, or_false] at hmem
  rcases hmem with rfl | rfl | rfl <;> rfl

/-- Names with a space and a character of three octets around the bar: the expression is put in
order and stays, and the names the other way round have the same value. -/
theorem spacedNames_resolve_stably :
    (∀ e ∈ barredTable.entries, e.expr = e.name) ∧
      ∃ r, barredTable.resolve? "LV_A |\u2003LV_C" = some r ∧ r.c = "LV_A | LV_C" ∧ r.value = -7 ∧
        barredTable.resolve? r.c = some r ∧
        (∀ i, r.value.toBitVec.getLsbD i = r.parts.any (·.value.toBitVec.getLsbD i)) ∧
        ∃ r', barredTable.resolve? "LV_C|LV_A" = some r' ∧ r'.value = r.value := by
  obtain ⟨-, hstable⟩ := resolution_is_stable _ _ expr_barredTable "LV_A |\u2003LV_C"
  have hr : barredTable.resolve? "LV_A |\u2003LV_C" =
      some (.ofParts
        [⟨7, "LV_A", 1, true, "LV_A", [], .api⟩, ⟨7, "LV_C", -8, true, "LV_C", [], .user⟩]) := by
    cbv
  obtain ⟨-, hagain, -, hbits, hperm⟩ := hstable _ hr
  have hswapped : (Blank.pieces 124 "LV_C|LV_A").Perm
      (Blank.pieces 124 "LV_A |\u2003LV_C") := by decide
  obtain ⟨r', hr', hvalue, -⟩ := hperm _ hswapped
  exact ⟨expr_barredTable, _, hr, by decide, by decide, hagain, hbits (by decide), r', hr', hvalue⟩

end EnumTable

end UiCodegen
