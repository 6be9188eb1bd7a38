import UiCodegen.Proofs.CanonicalTypes

/-!
# Spellings of types

A type may be spelled with loose spacing, with qualifiers in any place and with stars glued to
words.  Reading takes the array size off, counts the stars at the end and keeps the other words for
the base name, so a star in front of a qualifier is not counted but stays in the base name.  The
stars that are counted and those that stay are all there are (`pointers_add_count`).

Printing and reading again goes wrong in two ways: a star that ends the base name is now at the end
and is counted, and a size below -1 is not printed.  In all other cases the type is read back
(`reads_back_iff`).
-/

namespace UiCodegen

variable {front s whole : Bytes} {c : CType} {dim : Int} {level n : Nat} {size : Bytes} {b : UInt8}

namespace Integer

/-! ## Numbers that are read -/

lemma isDigit_of_digit? {d : Nat} (h : digit? b = some d) (hd : d < 10) :
    Bytes.isDigit b = true := by
  unfold digit? at h
  split at h
  · assumption
  · dsimp only at h
    split at h
    · rename_i hlower
      simp only [Bytes.isLower, Bool.and_eq_true, decide_eq_true_eq, UInt8.le_iff_toNat_le,
        UInt8.reduceToNat] at hlower
      simp only [Option.some.injEq] at h
      omega
    · cases h

lemma isDigit_of_digits {acc : Nat} (h : digits 10 false acc s = .ok n) :
    ∀ b ∈ s, Bytes.isDigit b = true := by
  induction s generalizing acc with
  | nil => simp
  | cons b rest ih =>
    simp only [digits, Bool.and_false, Bool.false_eq_true, if_false] at h
    split at h
    · cases h
    · rename_i d hdigit
      split at h
      · cases h
      · rename_i hbase
        split at h
        · cases h
        · exact List.forall_mem_cons.2 ⟨isDigit_of_digit? hdigit (by omega), ih h⟩

lemma isDigit_of_parseUnsigned (h : parseUnsigned (.fixed 10) s = .ok n) :
    ∀ b ∈ s, Bytes.isDigit b = true := by
  unfold parseUnsigned at h
  split at h
  · cases h
  · exact isDigit_of_digits h

/-- A number that is read has digits and perhaps a sign, and fits. -/
lemma parse?_eq_some {n : Int} (h : parse? (.fixed 10) s = some n) :
    (∀ b ∈ s, Bytes.isDigit b = true ∨ b = 43 ∨ b = 45) ∧ n < 2 ^ 63 := by
  have hparse : parse (.fixed 10) s = .ok n := by
    unfold parse? at h
    cases hs : parse (.fixed 10) s with
    | error _ => simp [hs, Except.toOption] at h
    | ok m =>
      rw [hs] at h
      cases h
      rfl
  unfold parse at hparse
  split at hparse
  rename_i negative body hsign
  have hs : s = body ∨ s = 43 :: body ∨ s = 45 :: body := by
    split at hsign <;> cases hsign <;> simp
  cases hdigits : parseUnsigned (.fixed 10) body with
  | error _ => simp [hdigits, bind, Except.bind] at hparse
  | ok m =>
    have hbody := isDigit_of_parseUnsigned hdigits
    simp only [hdigits, bind, Except.bind] at hparse
    refine ⟨?_, ?_⟩
    · intro b hb
      rcases hs with rfl | rfl | rfl
      · exact .inl (hbody b hb)
      · exact (List.mem_cons.1 hb).elim (fun heq => .inr (.inl heq)) fun hb => .inl (hbody b hb)
      · exact (List.mem_cons.1 hb).elim (fun heq => .inr (.inr heq)) fun hb => .inl (hbody b hb)
    · split at hparse
      · split at hparse
        · cases hparse
          omega
        · cases hparse
      · split at hparse
        · rename_i hlt
          cases hparse
          exact_mod_cast hlt
        · cases hparse

end Integer

namespace Api.CType

/-! ## Reading the words -/

/-- Whether a word belongs to the base name, as far as it is let pass. -/
def isNamePart (w : Bytes) : Bool := w != "const" && w != "volatile"

lemma parseWords_eq_ok {c' : CType} {words more : List Bytes}
    (h : parseWords whole c words more = .ok c') :
    Bytes.ofString "*" ∉ more ∧ words.reverse ++ more.filter isNamePart ≠ [] ∧
      IsName (words.reverse ++ more.filter isNamePart) ∧
      c'.base = Bytes.join " " (words.reverse ++ more.filter isNamePart) ∧
      c'.pointers = c.pointers := by
  induction more generalizing c words with
  | nil =>
    have hne : words.reverse ≠ [] := by
      intro hnil
      simp [parseWords, hnil] at h
    have hread := (parseWords_nil_iff hne whole c c').1 (by rwa [List.reverse_reverse])
    simp only [List.filter_nil, List.append_nil]
    exact ⟨by simp, hne, hread.1, by rw [hread.2], by rw [hread.2]⟩
  | cons w more ih =>
    simp only [parseWords, beq_iff_eq] at h
    split_ifs at h with hconst hvolatile hstar
    · obtain ⟨hmore, hrest⟩ := ih h
      refine ⟨?_, by simpa [isNamePart, hconst] using hrest⟩
      rw [hconst, List.mem_cons, not_or]
      exact ⟨by decide, hmore⟩
    · obtain ⟨hmore, hrest⟩ := ih h
      refine ⟨?_, by simpa [isNamePart, hvolatile] using hrest⟩
      rw [hvolatile, List.mem_cons, not_or]
      exact ⟨by decide, hmore⟩
    · obtain ⟨hmore, hrest⟩ := ih h
      have hpart : isNamePart w = true := by simp [isNamePart, hconst, hvolatile]
      rw [List.filter_cons_of_pos hpart, List.mem_cons, not_or]
      exact ⟨⟨fun heq => hstar heq.symm, hmore⟩, by simpa using hrest⟩

/-- The words that make the base name, of the text in front of the brackets. -/
def nameWords (front : Bytes) : List Bytes :=
  (Blank.words (dropStars 0 0 front.reverse).2.reverse).filter isNamePart

lemma parse_eq_ok (h : parse s = .ok c) :
      ∃ level front, parseArray s (Blank.trim s) = .ok (level, c.dim, front) ∧
      c.pointers = level + (dropStars 0 0 front.reverse).1 ∧ c.base = Bytes.join " "
      (nameWords front) ∧
      nameWords front ≠ [] ∧ IsName (nameWords front) ∧ ∀ w ∈ nameWords front, IsNameWord w := by
  obtain ⟨level, dim, front, harray, hwords⟩ := parse_steps h
  obtain ⟨hstar, hne, hname, hbase, hpointers⟩ := parseWords_eq_ok hwords
  obtain rfl : c.dim = dim := (parseWords_ok hwords).1
  refine ⟨level, front, harray, hpointers, hbase, hne, hname, fun w hw => ?_⟩
  obtain ⟨hmem, hpart⟩ := List.mem_filter.1 hw
  simp only [isNamePart, Bool.and_eq_true, bne_iff_ne, ne_eq] at hpart
  exact {
    solid := Blank.solid_of_mem_words hmem
    ne_const := hpart.1
    ne_volatile := hpart.2
    ne_star := fun heq => hstar (heq ▸ hmem)
    bracket_notMem := fun hb => (parseArray_ok harray).1 (subset_front hmem hb) }

/-! ## Counting the stars -/

lemma isInk_star : Blank.IsInk 42 := by decide +kernel

lemma count_dropStars (count skip : Nat) (s : Bytes) :
    (dropStars count skip s).1 + (dropStars count skip s).2.count 42 = count +
    (s.drop skip).count 42 := by
  fun_induction dropStars count skip s with
  | case1 => simp
  | case2 count b rest skip ih => simpa using ih
  | case3 count b rest hstar ih =>
    rw [ih, beq_iff_eq.1 hstar]
    simp only [List.drop_zero, List.count_cons_self]
    omega
  | case4 => simp
  | case5 count b rest hstar n hn ih =>
    -- White space between the stars is dropped, and it has no stars.
    have htrailing : Blank.trailing (b :: rest) = n + 1 := by
      split at hn
      · cases hn
      · exact hn
    have hgap := (Blank.noInk_take_trailing (b :: rest)).count_drop isInk_star
    rw [htrailing, List.drop_succ_cons] at hgap
    rw [ih, hgap, List.drop_zero]

lemma le_dropStars (count skip : Nat) (s : Bytes) : count ≤ (dropStars count skip s).1 := by
  fun_induction dropStars count skip s with
  | case1 => exact le_rfl
  | case2 _ _ _ _ ih => exact ih
  | case3 _ _ _ _ ih => omega
  | case4 => exact le_rfl
  | case5 _ _ _ _ _ _ ih => exact ih

lemma count_join (hb : b ≠ 32) (ws : List Bytes) :
    (Bytes.join " " ws).count b = ws.flatten.count b := by
  cases ws with
  | nil => rfl
  | cons w ws =>
    have hspaces : (ws.flatMap (Bytes.ofString " " ++ ·)).count b = ws.flatten.count b := by
      induction ws with
      | nil => rfl
      | cons v ws ih => simpa [Bytes.ofString_space, hb.symm] using ih
    rw [Bytes.join, List.count_append, hspaces, List.flatten_cons, List.count_append]

/-- Qualifiers have no stars, so those of the words are those of the base name. -/
lemma count_nameWords (front : Bytes) :
    (Bytes.join " " (nameWords front)).count 42 = (dropStars 0 0 front.reverse).2.count 42 := by
  have hparts : ∀ ws : List Bytes, (ws.filter isNamePart).flatten.count 42 =
      ws.flatten.count 42 := by
    intro ws
    induction ws with
    | nil => rfl
    | cons w ws ih =>
      by_cases hpart : isNamePart w = true
      · simp only [List.filter_cons_of_pos hpart, List.flatten_cons, List.count_append, ih]
      · have hqual : w = "const" ∨ w = "volatile" := by
          simpa [isNamePart, or_iff_not_imp_left] using hpart
        have hnone : w.count 42 = 0 := by
          rcases hqual with rfl | rfl <;> decide
        rw [List.filter_cons_of_neg hpart, ih, List.flatten_cons, List.count_append,
          hnone, Nat.zero_add]
  rw [count_join (by decide), nameWords, hparts, Blank.count_words isInk_star, List.count_reverse]

/-- A text by its first pair of brackets: what stands outside them, and what between them if there
are any. -/
def aroundBrackets (s : Bytes) : Bytes × Option Bytes :=
  match Bytes.cut? 91 s with
  | none => (s, none)
  | some (front, behind) =>
    match Bytes.cut? 93 behind with
    | none => (s, none)
    | some (size, after) => (front ++ after, some size)

/-- The pointer levels that a text shows: a star outside the brackets is one, and so are brackets
without a size. -/
def shownLevels (s : Bytes) : Nat :=
  (aroundBrackets s).1.count 42 + if (aroundBrackets s).2.any fun size =>
    (Blank.trim size).isEmpty then 1 else 0

lemma aroundBrackets_append (hfront : 91 ∉ front) (hsize : 93 ∉ size) (after : Bytes) :
    aroundBrackets (front ++ 91 :: (size ++ 93 :: after)) = (front ++ after, some size) := by
  simp only [aroundBrackets, Bytes.cut?_append hfront, Bytes.cut?_append hsize]

/-- What may stand between the brackets has no bracket. -/
lemma bracket_notMem_size
    (h : Blank.trim size = [] ∨ ∃ n, Integer.parse? (.fixed 10) (Blank.trim size) = some n) :
    93 ∉ size := by
  intro hmem
  rw [← Blank.mem_trim (by decide +kernel)] at hmem
  rcases h with hnil | ⟨n, hn⟩
  · rw [hnil] at hmem
    cases hmem
  · have hsign := (Integer.parse?_eq_some hn).1 93 hmem
    revert hsign
    decide

lemma level_add_count
    (h : parseArray whole (Blank.trim s) = .ok (level, dim, front)) :
    level + front.count 42 = shownLevels s := by
  obtain ⟨hnot, rfl, rfl, rfl⟩ | ⟨name, size, htrim, hname, rfl, hsize⟩ := parseArray_cases h
  · have hnone : 91 ∉ s := fun hb => hnot ((Blank.mem_trim (by decide +kernel)).2 hb)
    simp [shownLevels, aroundBrackets, Bytes.cut?_of_notMem hnone, Blank.count_trim isInk_star]
  · -- The white space that trimming takes off has neither brackets nor stars.
    obtain ⟨before, after, hs, hbefore, hafter⟩ := Blank.exists_trim s
    have hshape : s = before ++ name ++ 91 :: (size ++ 93 :: after) := by
      rw [htrim] at hs
      simpa using hs
    have hnot : 91 ∉ before ++ name := by
      simpa [hname] using fun hb => hbefore 91 hb (by decide +kernel)
    have hcount : (before ++ name ++ after).count 42 = (Blank.trim name).count 42 := by
      simp [hbefore.count_eq_zero isInk_star, hafter.count_eq_zero isInk_star,
        Blank.count_trim isInk_star]
    have hclosed : 93 ∉ size := bracket_notMem_size (hsize.imp (fun h => h.1) fun h => ⟨dim, h.2.2⟩)
    have haround := aroundBrackets_append hnot hclosed after
    rw [← hshape] at haround
    rcases hsize with ⟨hnil, rfl, rfl⟩ | ⟨hne, rfl, hn⟩
    · simp only [shownLevels, haround, hcount, Option.any_some, hnil, List.isEmpty_nil, if_true]
      omega
    · simp only [shownLevels, haround, hcount, Option.any_some, List.isEmpty_eq_false_iff.2 hne,
        Bool.false_eq_true, if_false]
      omega

/-- Each pointer level that a text shows is counted or left in the base name. -/
lemma pointers_add_count (h : parse s = .ok c) : c.pointers + c.base.count 42 = shownLevels s := by
  obtain ⟨level, front, harray, hpointers, hbase, -⟩ := parse_eq_ok h
  have hstars := count_dropStars 0 0 front.reverse
  rw [List.drop_zero, List.count_reverse] at hstars
  rw [hpointers, hbase, count_nameWords, ← level_add_count harray]
  omega

/-! ## Printing and reading again -/

lemma dim_lt_of_parseArray
    (h : parseArray whole s = .ok (level, dim, front)) : dim < 2 ^ 63 := by
  obtain ⟨-, -, rfl, -⟩ | ⟨name, size, -, -, -, ⟨-, -, rfl⟩ | ⟨-, -, hn⟩⟩ := parseArray_cases h
  · decide
  · decide
  · exact (Integer.parse?_eq_some hn).2

lemma dim_of_parse_text (hbase : 91 ∉ c.base) (hread : parse c.text = .ok c) : -1 ≤ c.dim := by
  by_contra hlow
  have htext : c.text = ({ c with dim := -1 } : CType).text := by
    have hneg : ¬ 0 ≤ c.dim := by omega
    simp [text, Bytes.onlyIf, hneg]
  have hdim := (parse_ok hread).2 (htext ▸ bracket_not_mem_text hbase)
  omega

lemma getLast?_of_parse_text {ws : List Bytes} (hne : ws ≠ []) (hws : ∀ w ∈ ws, IsNameWord w)
    (hjoin : c.base = Bytes.join " " ws) (hdim : c.dim = -1 ∨ 0 ≤ c.dim ∧ c.dim < 2 ^ 63)
    (hread : parse c.text = .ok c) : c.base.getLast? ≠ some 42 := by
  intro hstar
  have hhead : (Bytes.join " " (c.qualWords ++ ws)).reverse.head? = some 42 := by
    rw [List.head?_reverse, getLast?_join_quals hne hws hjoin, hstar]
  obtain ⟨rest, hrest⟩ := List.head?_eq_some_iff.1 hhead
  have hcount := le_dropStars (c.pointers + 1) 0 rest
  have hstep : dropStars c.pointers 0 (42 :: rest) = dropStars (c.pointers + 1) 0 rest := by
    rw [dropStars, if_pos (by rfl)]
  rw [parse_text_eq hne hws hjoin hdim (by rw [hrest, hstep])] at hread
  have hpointers := (parseWords_eq_ok hread).2.2.2.2
  dsimp only at hpointers
  omega

/-- The type of a text is read back from its printed form just if no star ends the base name and the
size is not below the one that stands for no array; and it has all the pointer levels of the text
just if no star is left in the base name. -/
theorem reads_back_iff {s : Bytes} {c : CType} (h : parse s = .ok c) :
    (parse c.text = .ok c ↔ c.base.getLast? ≠ some 42 ∧ -1 ≤ c.dim) ∧
      (c.pointers = shownLevels s ↔ 42 ∉ c.base) := by
  obtain ⟨level, front, harray, -, hbase, hne, hname, hws⟩ := parse_eq_ok h
  have hlt := dim_lt_of_parseArray harray
  refine ⟨⟨fun hread => ?_, fun ⟨hlast, hlow⟩ => ?_⟩, ?_⟩
  · have hlow := dim_of_parse_text (parse_ok h).1 hread
    exact ⟨getLast?_of_parse_text hne hws hbase (by omega) hread, hlow⟩
  · exact parse_text_of_isName hne hws hbase hname hlast (by omega)
  · rw [← pointers_add_count h, ← List.count_eq_zero]
    omega

/-- A type with loose spacing, a qualifier behind the base name and a sign in the brackets. -/
def looseSpelling : Bytes := "\tvolatile  lv_obj_t const* *[ +7 ]"

def looseType :
    CType := { base := "lv_obj_t", const := true, volatile := true, pointers := 2, dim := 7 }

theorem looseType_reads_back :
    parse looseSpelling = .ok looseType ∧ parse looseType.text = .ok looseType ∧
      looseType.pointers = shownLevels looseSpelling := by
  have hread : parse looseSpelling = .ok looseType := by decide +kernel
  obtain ⟨hback, hlevels⟩ := reads_back_iff hread
  exact ⟨hread, hback.2 ⟨by decide +kernel, by decide⟩, hlevels.2 (by decide +kernel)⟩

/-- A star in front of a qualifier is no pointer level until the type is printed and read again, and
a size below -1 is lost on the way. -/
theorem glued_star_and_low_size_change :
    parse "int* const" = .ok { base := "int*", const := true } ∧
      parse (CType.text { base := "int*", const := true }) = .ok
        { base := "int", const := true, pointers := 1 } ∧
      shownLevels "int* const" = 1 ∧
      parse "int[-5]" = .ok { base := "int", dim := -5 } ∧
      parse (CType.text { base := "int", dim := -5 }) = .ok { base := "int" } := by
  decide +kernel

end Api.CType

end UiCodegen
