import UiCodegen.Api.CType
import UiCodegen.Proofs.Words

/-!
# Brackets in type texts

Reading a type takes its array part off first and then works on parts of what is left, so brackets
never get into the base name.  It follows that the element type of an array, printed and read again,
is no array.
-/

namespace UiCodegen

variable {front s w whole : Bytes} {c : CType}

namespace Blank

lemma trim_subset (s : Bytes) : trim s ⊆ s := by
  obtain ⟨before, after, hs, -⟩ := exists_trim s
  intro b hb
  rw [hs]
  simp [hb]

lemma mem_wordsFrom {words : List Bytes} {word : Bytes} {n : Nat}
    (h : w ∈ wordsFrom words word n s) : w ∈ words ∨ ∀ b ∈ w, b ∈ word ∨ b ∈ s := by
  fun_induction wordsFrom words word n s with
  | case1 => grind
  | case2 _ _ _ _ _ ih => grind
  | case3 _ _ _ _ _ ih => grind
  | case4 _ _ _ _ _ _ ih => grind

lemma subset_of_mem_words (h : w ∈ words s) : w ⊆ s := by
  intro b hb
  simpa using (mem_wordsFrom h).resolve_left (by simp) b hb

end Blank

namespace Api

namespace CType

variable {dim : Int} {level : Nat} {c' : CType} {sep : UInt8}

lemma dropStars_subset (count skip : Nat) (s : Bytes) : (dropStars count skip s).2 ⊆ s := by
  fun_induction dropStars count skip s with
  | case1 => exact fun _ h => h
  | case2 _ _ _ _ ih | case3 _ _ _ _ ih => exact List.Subset.trans ih (List.subset_cons_self _ _)
  | case4 => exact fun _ h => h
  | case5 _ _ _ _ _ _ ih => exact List.Subset.trans ih (List.subset_cons_self _ _)

lemma parseWords_ok {words more : List Bytes} (h : parseWords whole c words more = .ok c') :
    c'.dim = c.dim ∧ ∀ b ∈ c'.base, b = 32 ∨ ∃ w, (w ∈ words ∨ w ∈ more) ∧ b ∈ w := by
  fun_induction parseWords whole c words more with
  | case1 => cases h
  | case2 => cases h
  | case3 c words first rest hwords base =>
    cases h
    refine ⟨rfl, fun b hb => ?_⟩
    have hjoin : b ∈ Bytes.join " " (first :: rest) := hb
    obtain hspace | ⟨w, hw, hb⟩ := Bytes.mem_join hjoin
    · exact .inl hspace
    · exact .inr ⟨w, .inl (List.mem_reverse.1 (hwords ▸ hw)), hb⟩
  | case4 => grind
  | case5 => grind
  | case6 => grind
  | case7 => grind

lemma cut?_eq_none (h : Bytes.cut? sep s = none) : sep ∉ s := by
  unfold Bytes.cut? at h
  split at h
  · rename_i hdrop
    intro hmem
    simpa using List.dropWhile_eq_nil_iff.1 hdrop sep hmem
  · cases h

lemma cut?_eq_some {behind : Bytes} (h : Bytes.cut? sep s = some (front, behind)) :
    s = front ++ sep :: behind ∧ sep ∉ front := by
  unfold Bytes.cut? at h
  split at h
  · cases h
  · rename_i b rest hdrop
    cases h
    refine ⟨?_, fun hmem => by simpa using List.mem_takeWhile_imp hmem⟩
    have hsep : b = sep := by simpa [hdrop] using List.head?_dropWhile_not (· != sep) s
    rw [← hsep, ← hdrop, hsep, List.takeWhile_append_dropWhile]

lemma eq_append_of_dropTail? {tail : Bytes} (h : Bytes.dropTail? s tail = some front) :
    s = front ++ tail := by
  unfold Bytes.dropTail? at h
  split at h
  · rename_i hends
    obtain ⟨t, rfl⟩ := List.isSuffixOf_iff_suffix.1 hends
    simpa using h
  · cases h

/-- The array part: there is none, or it is a pair of brackets at the end, with a number or with
nothing in it. -/
lemma parseArray_cases (h : parseArray whole s = .ok (level, dim, front)) :
    (91 ∉ s ∧ level = 0 ∧ dim = -1 ∧ front = s) ∨
      ∃ name size, s = name ++ 91 :: (size ++ [93]) ∧ 91 ∉ name ∧ front = Blank.trim name ∧
        (Blank.trim size = [] ∧ level = 1 ∧ dim = -1 ∨
          Blank.trim size ≠ [] ∧ level = 0 ∧ Integer.parse? (.fixed 10)
          (Blank.trim size) = some dim) := by
  unfold parseArray at h
  split at h
  · rename_i hcut
    cases h
    exact .inl ⟨cut?_eq_none hcut, rfl, rfl, rfl⟩
  · rename_i name behind hcut
    split at h
    · cases h
    · rename_i size htail
      obtain ⟨hs, hname⟩ := cut?_eq_some hcut
      have hbehind : behind = size ++ [93] := eq_append_of_dropTail? htail
      refine .inr ⟨name, size, hbehind ▸ hs, hname, ?_⟩
      dsimp only at h
      split at h
      · rename_i hempty
        cases h
        exact ⟨rfl, .inl ⟨List.isEmpty_iff.1 hempty, rfl, rfl⟩⟩
      · rename_i hempty
        split at h
        · cases h
        · rename_i n hn
          cases h
          exact ⟨rfl, .inr ⟨fun hnil => hempty (List.isEmpty_iff.2 hnil), rfl, hn⟩⟩

lemma parseArray_ok
    (h : parseArray whole s = .ok (level, dim, front)) : 91 ∉ front ∧ (91 ∉ s → dim = -1) := by
  obtain ⟨hnot, -, rfl, rfl⟩ | ⟨name, size, rfl, hname, rfl, -⟩ := parseArray_cases h
  · exact ⟨hnot, fun _ => rfl⟩
  · exact ⟨fun hb => hname (Blank.trim_subset _ hb), fun hnot => absurd (by simp) hnot⟩

/-- The three steps of reading: the array part, the pointer levels at the end, and the words. -/
lemma parse_steps (h : parse s = .ok c) :
      ∃ level dim front, parseArray s (Blank.trim s) = .ok (level, dim, front) ∧
      parseWords s { base := [], pointers := level + (dropStars 0 0 front.reverse).1, dim } []
        (Blank.words (dropStars 0 0 front.reverse).2.reverse) = .ok c := by
  unfold parse at h
  dsimp only at h
  split at h
  · cases h
  · cases harray : parseArray s (Blank.trim s) with
    | error _ => simp [harray, bind, Except.bind] at h
    | ok r =>
      obtain ⟨level, dim, front⟩ := r
      simp only [harray, bind, Except.bind] at h
      exact ⟨level, dim, front, rfl, h⟩

lemma subset_front (hw : w ∈ Blank.words (dropStars 0 0 front.reverse).2.reverse) : w ⊆ front := by
  intro b hb
  have hstars := List.mem_reverse.1 (Blank.subset_of_mem_words hw hb)
  exact List.mem_reverse.1 (dropStars_subset _ _ _ hstars)

/-- A bracket is read as part of an array only. -/
lemma parse_ok (h : parse s = .ok c) : 91 ∉ c.base ∧ (91 ∉ s → c.dim = -1) := by
  obtain ⟨level, dim, front, harray, hwords⟩ := parse_steps h
  obtain ⟨hfront, hdim⟩ := parseArray_ok harray
  obtain ⟨hsame, hbase⟩ := parseWords_ok hwords
  refine ⟨fun hb => ?_, fun hs => hsame.trans (hdim fun hb => hs (Blank.trim_subset _ hb))⟩
  obtain hblank | ⟨w, hw, hb⟩ := hbase 91 hb
  · cases hblank
  · exact hfront (subset_front (by simpa using hw) hb)

lemma bracket_not_mem_text (h : 91 ∉ c.base) : 91 ∉ ({ c with dim := -1 } : CType).text := by
  have hconst : 91 ∉ Bytes.ofString "const " := by decide
  have hvolatile : 91 ∉ Bytes.ofString "volatile " := by decide
  have honly : ∀ (condition : Bool) (s : Bytes), 91 ∉ s → 91 ∉ Bytes.onlyIf condition s := by
    intro condition s hs
    cases condition <;> simp [Bytes.onlyIf, hs]
  have hstars : 91 ∉ (32 :: List.replicate c.pointers 42 : Bytes) := by simp [List.mem_replicate]
  simp only [text, List.mem_append, not_or]
  exact ⟨⟨⟨⟨honly _ _ hconst, honly _ _ hvolatile⟩, h⟩, honly _ _ hstars⟩, by simp [Bytes.onlyIf]⟩

lemma parse?_eq_some (h : parse? s = some c) : parse s = .ok c := by
  unfold parse? at h
  cases hparse : parse s with
  | error _ => simp [hparse, Except.toOption] at h
  | ok c' =>
    rw [hparse] at h
    cases h
    rfl

/-- The element of an array is no array. -/
lemma dim_parse?_elem (h : parse? s = some c)
    (h' : parse? ({ c with dim := -1 } : CType).text = some c') : c'.dim = -1 := by
  have hbase : 91 ∉ c.base := (parse_ok (parse?_eq_some h)).1
  exact (parse_ok (parse?_eq_some h')).2 (bracket_not_mem_text hbase)

end CType

end Api

end UiCodegen
