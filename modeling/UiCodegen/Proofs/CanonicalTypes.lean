import UiCodegen.Proofs.Naming
import UiCodegen.Proofs.TypeText

/-!
# Reading canonical types

A type is printed as words with one space between them, then a space and the pointer levels, then
the array size in brackets.  Reading goes the other way round: it takes the array size off, then the
pointer levels from the end, and then looks at the words.  Each step finds exactly what printing put
there, for every base name of words that reading lets pass, as long as the name itself does not end
in a star (`parse_text_of_isName`).  So it is for a name of one word and for several words of C's
own type names (`parse_text`).
-/

namespace UiCodegen

variable {n : Nat} {s w : Bytes} {c : CType} {ws : List Bytes}

namespace Bytes

lemma cut?_of_notMem {sep : UInt8} (h : sep ∉ s) : cut? sep s = none := by
  have hall : ∀ b ∈ s, (b != sep) = true :=
    fun b hb => by simpa using fun heq : b = sep => h (heq ▸ hb)
  rw [cut?, List.dropWhile_eq_nil_iff.2 hall]

lemma cut?_append {sep : UInt8} {front : Bytes} (h : sep ∉ front) (behind : Bytes) :
    cut? sep (front ++ sep :: behind) = some (front, behind) := by
  have hall : ∀ b ∈ front, (b != sep) = true :=
    fun b hb => by simpa using fun heq : b = sep => h (heq ▸ hb)
  simp [cut?, List.dropWhile_append_of_pos hall, List.takeWhile_append_of_pos hall]

lemma dropTail?_append (s tail : Bytes) : dropTail? (s ++ tail) tail = some s := by
  simp [dropTail?, endsWith]

end Bytes

namespace Integer

/-! ## Decimal numbers -/

lemma digits_append (base : Nat) (underscores : Bool) (acc : Nat) (s t : Bytes) :
    digits base underscores acc (s ++ t) = (digits base underscores acc s).bind fun acc =>
    digits base underscores acc t := by
  fun_induction digits base underscores acc s with
  | case1 => rfl
  | case2 acc b rest hscore ih => simp [digits, hscore, ih]
  | case3 acc b rest hscore hdigit => simp [digits, hscore, hdigit, Except.bind]
  | case4 acc b rest hscore d hdigit hbase => simp [digits, hscore, hdigit, hbase, Except.bind]
  | case5 acc b rest hscore d hdigit hbase hlarge =>
      simp [digits, hscore, hdigit, hbase, hlarge, Except.bind]
  | case6 acc b rest hscore d hdigit hbase hlarge ih => simp [digits, hscore, hdigit, hbase, hlarge, ih]

lemma digit?_digitChar {d : Nat} (hd : d < 10) :
    digit? (Nat.digitChar d).toNat.toUInt8 = some d := by
  interval_cases d <;> decide

lemma digits_digit {d acc : Nat} (hd : d < 10) (hlt : acc * 10 + d < 2 ^ 64) :
    digits 10 false acc [(Nat.digitChar d).toNat.toUInt8] = .ok (acc * 10 + d) := by
  have hbase : ¬ 10 ≤ d := by omega
  have hrange : ¬ Nat.pow 2 64 ≤ acc * 10 + d := by
    rw [not_le]
    exact hlt
  simp only [digits, Bool.and_false, Bool.false_eq_true, if_false, digit?_digitChar hd,
    if_neg hbase, if_neg hrange]

lemma digits_ofNat (hn : n < 2 ^ 64) : digits 10 false 0 (Bytes.ofNat n) = .ok n := by
  induction n using Nat.strong_induction_on with
  | _ n ih =>
    by_cases hsmall : n < 10
    · rw [Bytes.ofNat, Nat.toDigits_of_lt_base hsmall]
      have hdigit := digits_digit hsmall (show 0 * 10 + n < 2 ^ 64 by omega)
      rwa [Nat.zero_mul, Nat.zero_add] at hdigit
    · have hfront : Bytes.ofNat n = Bytes.ofNat (n / 10) ++
        [(Nat.digitChar (n % 10)).toNat.toUInt8] := by
        rw [Bytes.ofNat, Nat.toDigits_of_base_le (by omega) (by omega), List.map_append]
        rfl
      rw [hfront, digits_append, ih (n / 10) (by omega) (by omega)]
      have hlast :=
        digits_digit (Nat.mod_lt n (by omega)) (show n / 10 * 10 + n % 10 < 2 ^ 64 by omega)
      rwa [Nat.div_add_mod'] at hlast

/-- A sign is no digit, so what is read without a sign has none. -/
lemma parse?_of_parseUnsigned {base : Base} (h : parseUnsigned base s = .ok n) :
    parse? base s = if n < 2 ^ 63 then some (n : ℤ) else none := by
  have hsign : ∀ t, s ≠ 43 :: t ∧ s ≠ 45 :: t := by
    intro t
    constructor <;> rintro rfl <;> cases base <;> cases h
  rw [parse?, parse]
  · simp only [h, bind, Except.bind, Bool.false_eq_true, if_false]
    change Except.toOption (if n < 2 ^ 63 then _ else _) = _
    split_ifs <;> rfl
  · exact fun t => (hsign t).1
  · exact fun t => (hsign t).2

lemma parseUnsigned?_eq_some_iff {base : Base} :
    parseUnsigned? base s = some n ↔ parseUnsigned base s = .ok n := by
  rw [parseUnsigned?]
  cases parseUnsigned base s <;> simp [Except.toOption]

lemma parse?_ofNat (hn : n < 2 ^ 63) : parse? (.fixed 10) (Bytes.ofNat n) = some (n : ℤ) := by
  have hread : parseUnsigned (.fixed 10) (Bytes.ofNat n) = .ok n := by
    rw [parseUnsigned, if_neg (by simp [Transpile.ofNat_ne_nil n])]
    exact digits_ofNat (by omega)
  rw [parse?_of_parseUnsigned hread, if_pos hn]

end Integer

namespace Api.CType

/-! ## Base names -/

/-- A word that may stand in a base name: no qualifier, and without stars and brackets. -/
structure IsBaseWord (w : Bytes) : Prop where
  isWord : Blank.IsWord w
  ne_const : w ≠ "const"
  ne_volatile : w ≠ "volatile"
  star_notMem : 42 ∉ w
  bracket_notMem : 91 ∉ w

/-- A base name that is read as it is printed: one word, or several words of C's own type names. -/
def IsBase (base : Bytes) : Prop :=
  ∃ ws, ws ≠ [] ∧ (∀ w ∈ ws, IsBaseWord w) ∧ (1 < ws.length → ∀ w ∈ ws, w ∈ primitiveWords) ∧
    base = Bytes.join " " ws

def qualWords (c : CType) : List Bytes :=
  (if c.const then [Bytes.ofString "const"] else []) ++ if c.volatile then
    [Bytes.ofString "volatile"] else []

def levels (p : Nat) : Bytes := Bytes.onlyIf (0 < p) (32 :: List.replicate p 42)

/-- A word that reading takes for a part of the base name. -/
structure IsNameWord (w : Bytes) : Prop where
  solid : Blank.Solid w
  ne_const : w ≠ "const"
  ne_volatile : w ≠ "volatile"
  ne_star : w ≠ "*"
  bracket_notMem : 91 ∉ w

/-- Several words make a base name if they are words of C's own type names or if the first says what
is named. -/
def IsName (ws : List Bytes) : Prop :=
  1 < ws.length → isPrimitiveName (Bytes.join " " ws) = true ∨
    ws.head? = some "struct" ∨ ws.head? = some "union" ∨ ws.head? = some "enum"

lemma IsBaseWord.isNameWord (h : IsBaseWord w) : IsNameWord w where
  solid := h.isWord.solid
  ne_const := h.ne_const
  ne_volatile := h.ne_volatile
  ne_star := fun heq => h.star_notMem (by rw [heq]; decide)
  bracket_notMem := h.bracket_notMem

lemma isPrimitiveName_join (hne : ws ≠ []) (hws : ∀ w ∈ ws, Blank.Solid w)
    (hprimitive : ∀ w ∈ ws, w ∈ primitiveWords) : isPrimitiveName (Bytes.join " " ws) = true := by
  simp only [isPrimitiveName, Blank.words_join hws, Bool.and_eq_true, Bool.not_eq_true',
    List.isEmpty_eq_false_iff, List.all_eq_true, List.contains_iff_mem]
  exact ⟨Blank.join_ne_nil hne hws, hprimitive⟩

/-! ## The words of a type -/

lemma text_eq (hne : ws ≠ []) (hbase : c.base = Bytes.join " " ws) :
    c.text = Bytes.join " " (c.qualWords ++ ws) ++ levels c.pointers ++
      Bytes.onlyIf (0 ≤ c.dim) ("[" ++ Bytes.ofInt c.dim ++ "]") := by
  have hconst : Bytes.ofString "const " = Bytes.ofString "const" ++ Bytes.ofString " " := by decide
  have hvolatile : Bytes.ofString "volatile " = Bytes.ofString "volatile" ++
      Bytes.ofString " " := by decide
  obtain ⟨w, ws, rfl⟩ := List.exists_cons_of_ne_nil hne
  rw [text, hbase]
  cases hc : c.const <;> cases hv : c.volatile <;>
    simp [qualWords, levels, hc, hv, Bytes.onlyIf, Bytes.join_cons_cons, hconst, hvolatile]

/-! ## Reading what is printed -/

lemma isInk_of_isDigit {b : UInt8} (h : Bytes.isDigit b = true) : Blank.IsInk b := by
  simp only [Bytes.isDigit, Bool.and_eq_true, decide_eq_true_eq, UInt8.le_iff_toNat_le,
    UInt8.reduceToNat] at h
  unfold Blank.IsInk
  omega

lemma trim_ofNat (n : Nat) : Blank.trim (Bytes.ofNat n) = Bytes.ofNat n :=
  Blank.trim_of_ink fun _ hb => isInk_of_isDigit (Transpile.isDigit_of_mem_ofNat hb)

lemma parseArray_size {front : Bytes} (hbracket : 91 ∉ front) (htrim : Blank.trim front = front)
    {dim : Int} (hdim : dim = -1 ∨ 0 ≤ dim ∧ dim < 2 ^ 63) (whole : Bytes) :
    parseArray whole (front ++ Bytes.onlyIf (0 ≤ dim) ("[" ++ Bytes.ofInt dim ++ "]")) = .ok
    (0, dim, front) := by
  rcases hdim with rfl | ⟨hnonneg, hlt⟩
  · simp [Bytes.onlyIf, parseArray, Bytes.cut?_of_notMem hbracket]
  · obtain ⟨n, rfl⟩ := Int.eq_ofNat_of_zero_le hnonneg
    have htext : Bytes.ofString "[" ++ Bytes.ofInt n ++ Bytes.ofString "]" =
        91 :: (Bytes.ofNat n ++ Bytes.ofString "]") :=
      rfl
    simp only [parseArray, Bytes.onlyIf, decide_eq_true hnonneg, if_true, htext,
      Bytes.cut?_append hbracket,
      Bytes.dropTail?_append, trim_ofNat, htrim, Integer.parse?_ofNat (by exact_mod_cast hlt),
      List.isEmpty_eq_false_iff.2 (Transpile.ofNat_ne_nil n), Bool.false_eq_true, if_false]

lemma dropStars_replicate (count n : Nat) (rest : Bytes) :
    dropStars count 0 (List.replicate n 42 ++ rest) = dropStars (count + n) 0 rest := by
  induction n generalizing count with
  | zero => rfl
  | succ n ih =>
    rw [List.replicate_succ, List.cons_append, dropStars, if_pos (by rfl), ih, Nat.add_assoc,
      Nat.add_comm 1]

/-- The pointer levels are counted from the end, and the space in front of them is dropped. -/
lemma dropStars_reverse_levels (s : Bytes) (p : Nat) :
    dropStars 0 0 (s ++ levels p).reverse = dropStars p 0 s.reverse := by
  cases p with
  | zero => simp [levels, Bytes.onlyIf]
  | succ p =>
    have hspace : dropStars (p + 1) 0 (32 :: s.reverse) = dropStars (p + 1) 0 s.reverse := by
      rw [dropStars]
      simp [Blank.trailing_space]
    have hstars := dropStars_replicate 0 (p + 1) (32 :: s.reverse)
    rw [Nat.zero_add, hspace] at hstars
    rw [← hstars]
    simp [levels, Bytes.onlyIf]

lemma dropStars_stop (hend : Blank.trailing s.reverse = 0) (hlast : s.getLast? ≠ some 42)
    (count : Nat) : dropStars count 0 s.reverse = (count, s.reverse) := by
  rw [← List.head?_reverse] at hlast
  cases hs : s.reverse with
  | nil => rfl
  | cons b rest =>
    have hne : (b == 42) = false := by simpa [hs] using hlast
    rw [dropStars]
    simp [hne, ← hs, hend]

/-- The words of a base name are collected, last first. -/
lemma parseWords_base (hws : ∀ w ∈ ws, IsNameWord w) (whole : Bytes) (c : CType)
    (words : List Bytes) :
    parseWords whole c words ws = parseWords whole c (ws.reverse ++ words) [] := by
  induction ws generalizing words with
  | nil => rfl
  | cons w ws ih =>
    rw [List.forall_mem_cons] at hws
    have hstep : parseWords whole c words (w :: ws) = parseWords whole c (w :: words) ws := by
      simp [parseWords, hws.1.ne_const, hws.1.ne_volatile, hws.1.ne_star]
    rw [hstep, ih hws.2, List.reverse_cons, List.append_assoc, List.singleton_append]

lemma parseWords_quals (whole : Bytes) (c : CType) (ws : List Bytes) (p : Nat) (dim : Int) :
    parseWords whole { base := [], pointers := p, dim } [] (c.qualWords ++ ws) =
      parseWords whole { base := [], const := c.const, volatile := c.volatile, pointers := p, dim }
        [] ws := by
  have hne : Bytes.ofString "volatile" ≠ Bytes.ofString "const" := by decide
  cases hc : c.const <;> cases hv : c.volatile <;> simp [qualWords, hc, hv, parseWords, hne]

/-- The words that make a base name are let pass, and no others. -/
lemma parseWords_nil_iff (hne : ws ≠ []) (whole : Bytes) (c c' : CType) :
    parseWords whole c ws.reverse [] = .ok c' ↔ IsName ws ∧
    c' = { c with base := Bytes.join " " ws } := by
  obtain ⟨w, ws, rfl⟩ := List.exists_cons_of_ne_nil hne
  have hname : IsName (w :: ws) ↔
      ¬ (!ws.isEmpty && !isPrimitiveName (Bytes.join " " (w :: ws)) && w != "struct" &&
      w != "union" && w != "enum") = true := by
    cases ws with
    | nil => simp [IsName]
    | cons next ws =>
      by_cases hprimitive : isPrimitiveName (Bytes.join " " (w :: next :: ws)) = true
      · simp [IsName, hprimitive]
      · simp [IsName, hprimitive, or_iff_not_imp_left]
  simp only [parseWords, List.reverse_reverse]
  split
  · rename_i hrefused
    simp [hname, hrefused]
  · rename_i hpassed
    rw [Except.ok.injEq, eq_comm, hname]
    exact (and_iff_right hpassed).symm

lemma isWord_of_mem_qualWords (hw : w ∈ c.qualWords) : Blank.IsWord w ∧ 91 ∉ w := by
  simp only [qualWords, List.mem_append, List.mem_ite_nil_right, List.mem_singleton] at hw
  rcases hw with ⟨-, rfl⟩ | ⟨-, rfl⟩
  all_goals decide +kernel

lemma tight_levels (h : Blank.Tight s) (hne : s ≠ []) (p : Nat) : Blank.Tight (s ++ levels p) := by
  cases p with
  | zero => simpa [levels, Bytes.onlyIf] using h
  | succ p =>
    rw [levels, List.replicate_succ', ← List.cons_append]
    exact h.append_onlyIf hne _ (by decide) _ (by decide +kernel)

lemma bracket_notMem_levels (h : 91 ∉ s) (p : Nat) : 91 ∉ s ++ levels p := by
  cases p with
  | zero => simpa [levels, Bytes.onlyIf] using h
  | succ p => simp [levels, Bytes.onlyIf, h, List.mem_replicate]

section

variable {c : CType} {ws : List Bytes} (hne : ws ≠ []) (hws : ∀ w ∈ ws, IsNameWord w)
  (hjoin : c.base = Bytes.join " " ws)

include hws in
lemma solid_of_mem_printedWords (hw : w ∈ c.qualWords ++ ws) : Blank.Solid w := by
  rcases List.mem_append.1 hw with hqual | hw
  · exact (isWord_of_mem_qualWords hqual).1.solid
  · exact (hws w hw).solid

include hws in
lemma bracket_notMem_join : 91 ∉ Bytes.join " " (c.qualWords ++ ws) := by
  intro hmem
  obtain hspace | ⟨w, hw, hmem⟩ := Bytes.mem_join hmem
  · cases hspace
  · rcases List.mem_append.1 hw with hqual | hw
    · exact (isWord_of_mem_qualWords hqual).2 hmem
    · exact (hws w hw).bracket_notMem hmem

include hne hws hjoin in
lemma getLast?_join_quals : (Bytes.join " " (c.qualWords ++ ws)).getLast? = c.base.getLast? := by
  have hsome : c.qualWords ++ ws ≠ [] := by simp [hne]
  have hword := (hws _ (List.getLast_mem hne)).solid.ne_nil
  have hgetLast := List.getLast_append_of_ne_nil hsome hne
  rw [Blank.getLast?_join hsome (hgetLast ▸ hword), hgetLast, hjoin, Blank.getLast?_join hne hword]

include hne hws hjoin in
/-- Of a printed type the array size is taken off, and then the pointer levels from the end of what
is left. -/
lemma parse_text_eq (hdim : c.dim = -1 ∨ 0 ≤ c.dim ∧ c.dim < 2 ^ 63) {stars : Nat}
    {reversed : Bytes}
    (hstars : dropStars c.pointers 0 (Bytes.join " " (c.qualWords ++ ws)).reverse =
      (stars, reversed)) :
    parse c.text = parseWords c.text { base := [], pointers := stars, dim := c.dim } []
      (Blank.words reversed.reverse) := by
  have hall : ∀ w ∈ c.qualWords ++ ws, Blank.Solid w := fun w hw => solid_of_mem_printedWords hws hw
  have hsome : c.qualWords ++ ws ≠ [] := by simp [hne]
  have hnonempty := Blank.join_ne_nil hsome hall
  have htight := tight_levels (Blank.tight_join hsome hall) hnonempty c.pointers
  have htext : Blank.Tight c.text := by
    rw [text_eq hne hjoin]
    exact htight.append_onlyIf (by simp [hnonempty]) _ (by decide) _ (by decide +kernel)
  have hempty : c.text.isEmpty = false := by
    rw [text_eq hne hjoin]
    simp [hnonempty]
  have harray :=
    parseArray_size (bracket_notMem_levels (bracket_notMem_join hws) c.pointers)
      htight.trim_eq hdim c.text
  rw [← text_eq hne hjoin] at harray
  rw [← dropStars_reverse_levels] at hstars
  simp only [parse, htext.trim_eq, hempty, harray, hstars, bind, Except.bind, Nat.zero_add]
  rfl

include hne hws hjoin in
/-- A printed type is read back if the stars behind its base name are all pointer levels. -/
lemma parse_text_of_isName (hname : IsName ws) (hlast : c.base.getLast? ≠ some 42)
    (hdim : c.dim = -1 ∨ 0 ≤ c.dim ∧ c.dim < 2 ^ 63) : parse c.text = .ok c := by
  have hall : ∀ w ∈ c.qualWords ++ ws, Blank.Solid w := fun w hw => solid_of_mem_printedWords hws hw
  have hend := (Blank.tight_join (by simp [hne]) hall).last
  have hstars := dropStars_stop hend (getLast?_join_quals hne hws hjoin ▸ hlast) c.pointers
  rw [parse_text_eq hne hws hjoin hdim hstars, List.reverse_reverse, Blank.words_join hall,
    parseWords_quals,
    parseWords_base hws, List.append_nil, (parseWords_nil_iff hne _ _ _).2 ⟨hname, rfl⟩, ← hjoin]

end

lemma parse_text (hbase : IsBase c.base) (hdim : c.dim = -1 ∨ 0 ≤ c.dim ∧ c.dim < 2 ^ 63) :
    parse c.text = .ok c := by
  obtain ⟨ws, hne, hws, hprimitive, hjoin⟩ := hbase
  have hname : IsName ws := fun hmany =>
    .inl (isPrimitiveName_join hne (fun w hw => (hws w hw).isWord.solid) (hprimitive hmany))
  have hlast : c.base.getLast? ≠ some 42 := by
    intro hstar
    obtain hspace | ⟨w, hw, hmem⟩ := Bytes.mem_join (hjoin ▸ List.mem_of_getLast? hstar)
    · cases hspace
    · exact (hws w hw).star_notMem hmem
  exact parse_text_of_isName hne (fun w hw => (hws w hw).isNameWord) hjoin hname hlast hdim

end Api.CType

end UiCodegen
