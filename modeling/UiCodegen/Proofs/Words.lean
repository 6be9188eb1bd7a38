import UiCodegen.Proofs.Utf8
import UiCodegen.Text.Blank

/-!
# White space and words

A white-space character may take several octets, and a text may hold octets that belong to no
character, so it cannot be told octet by octet where a word ends.  What holds of a word is that no
white space begins anywhere in it (`Solid`). ASCII behind the word does not change that, since ASCII
never continues a character.  So words with spaces between them are split where they were joined
(`words_join`), and a text of such words has nothing to trim (`tight_join`).

In the other direction splitting gives solid words only (`solid_of_mem_words`), and neither
splitting nor trimming loses an octet of ASCII that shows (`count_words`, `exists_trim`).
-/

namespace UiCodegen

variable {rest s t w word : Bytes} {b : UInt8} {ws : List Bytes}

namespace Bytes

lemma ofString_space : ofString " " = [32] := by decide

lemma join_cons_cons (sep piece next : Bytes) (pieces : List Bytes) :
    join sep (piece :: next :: pieces) = piece ++ (sep ++ join sep (next :: pieces)) := by
  simp [join]

lemma mem_join (hb : b ∈ join " " ws) : b = 32 ∨ ∃ w ∈ ws, b ∈ w := by
  cases ws with
  | nil => cases hb
  | cons w ws =>
    rcases List.mem_append.1 hb with hfirst | hrest
    · exact .inr ⟨w, by simp, hfirst⟩
    · obtain ⟨v, hv, hb⟩ := List.mem_flatMap.1 hrest
      rcases List.mem_append.1 hb with hspace | hb
      · exact .inl (by simpa [ofString_space] using hspace)
      · exact .inr ⟨v, by simp [hv], hb⟩

end Bytes

namespace Blank

/-! ## White space in ASCII -/

/-- An octet of ASCII that shows. -/
def IsInk (b : UInt8) : Prop := 33 ≤ b.toNat ∧ b.toNat ≤ 126

instance : DecidablePred IsInk :=
  fun b => inferInstanceAs (Decidable (33 ≤ b.toNat ∧ b.toNat ≤ 126))

lemma IsInk.ascii (h : IsInk b) : b < 0x80 :=
  UInt8.lt_iff_toNat_lt.2 (Nat.lt_succ_of_le (h.2.trans (by decide)))

lemma isBlank_ink (h : IsInk b) : isBlank b.toNat = false := by
  obtain ⟨hlow, hhigh⟩ := h
  simp only [isBlank, Bool.or_eq_false_iff, Bool.and_eq_false_iff, decide_eq_false_iff_not,
    beq_eq_false_iff_ne]
  omega

lemma leading_ascii (h : b < 0x80) (rest : Bytes) :
    leading (b :: rest) = if isBlank b.toNat then 1 else 0 := by
  simp [leading, Utf8.first?, h]

lemma leading_ink (h : IsInk b) (rest : Bytes) : leading (b :: rest) = 0 := by
  simp [leading_ascii h.ascii, isBlank_ink h]

lemma leading_space (rest : Bytes) : leading (32 :: rest) = 1 := by
  rw [leading_ascii (by decide)]
  rfl

/-! ## The white space that begins a text -/

/-- Octets of which none shows in ASCII, such as those of white space. -/
def NoInk (gap : Bytes) : Prop := ∀ b ∈ gap, ¬ IsInk b

lemma NoInk.append (hs : NoInk s) (ht : NoInk t) : NoInk (s ++ t) := by
  intro b hb
  exact (List.mem_append.1 hb).elim (hs b) (ht b)

lemma NoInk.count_eq_zero {gap : Bytes} (h : NoInk gap) (hb : IsInk b) : gap.count b = 0 :=
  List.count_eq_zero.2 fun hmem => h b hmem hb

lemma NoInk.count_drop {n : Nat} (h : NoInk (s.take n)) (hb : IsInk b) :
    (s.drop n).count b = s.count b := by
  conv_rhs => rw [← List.take_append_drop n s]
  rw [List.count_append, h.count_eq_zero hb, Nat.zero_add]

lemma leading_nil : leading [] = 0 := by
  simp [leading, Utf8.first?]

/-- The white space that begins a text is one whole character. -/
lemma leading_cases (s : Bytes) :
      leading s = 0 ∨ ∃ code rest, isBlank code = true ∧ s = Utf8.encode code ++ rest ∧
      leading s = (Utf8.encode code).length := by
  cases hfirst : Utf8.first? s with
  | none => exact .inl (by simp [leading, hfirst])
  | some p =>
    obtain ⟨code, size⟩ := p
    obtain ⟨-, ⟨rest, hs⟩, hsize⟩ := Utf8.eq_encode_of_first? hfirst
    by_cases hblank : isBlank code = true
    · exact .inr ⟨code, rest, hblank, hs, by simp [leading, hfirst, hblank, hsize]⟩
    · exact .inl (by simp [leading, hfirst, hblank])

lemma leading_le_length (s : Bytes) : leading s ≤ s.length := by
  obtain hzero | ⟨code, rest, -, hs, hleading⟩ := leading_cases s
  · omega
  · rw [hleading, hs, List.length_append]
    exact Nat.le_add_right _ _

lemma noInk_take_leading (s : Bytes) : NoInk (s.take (leading s)) := by
  intro b hb hink
  obtain hzero | ⟨code, rest, hblank, hs, hleading⟩ := leading_cases s
  · simp [hzero] at hb
  · rw [hleading, hs, List.take_left] at hb
    rw [Utf8.eq_of_mem_encode hink.ascii hb, isBlank_ink hink] at hblank
    cases hblank

/-- A character of several octets has none of ASCII. -/
lemma leading_ne_length (hb : b < 0x80) (hmem : b ∈ t) (hlength : 1 < t.length) :
    leading t ≠ t.length := by
  intro hall
  obtain hzero | ⟨code, rest, -, hs, hleading⟩ := leading_cases t
  · omega
  · have hrest : t = Utf8.encode code := by
      have hsum := congrArg List.length hs
      rw [List.length_append] at hsum
      rw [hs, List.eq_nil_of_length_eq_zero (l := rest) (by omega), List.append_nil]
    have hcode : code = b.toNat := Utf8.eq_of_mem_encode hb (hrest ▸ hmem)
    rw [hcode, Utf8.encode_toNat hb] at hrest
    simp [hrest] at hlength

lemma leading_append (ht : t ≠ []) (hrest : ∀ b ∈ rest.head?, b < 0x80) :
    leading (t ++ rest) = leading t := by
  rw [leading, Utf8.first?_append ht hrest, leading]

lemma leading_of_append (h : leading (t ++ rest) = 0) : leading t = 0 := by
  cases hfirst : Utf8.first? t with
  | none => simp [leading, hfirst]
  | some p =>
    rw [leading, Utf8.first?_append_of_some hfirst] at h
    rw [leading, hfirst]
    exact h

/-! ## White-space characters -/

/-- The octets of one white-space character. -/
def IsSpace (w : Bytes) : Prop := ∃ code, isBlank code = true ∧ Utf8.encode code = w

lemma isScalar_of_isBlank {code : Nat} (h : isBlank code = true) :
    Utf8.IsScalar code ∧ code < 0xD800 := by
  simp only [isBlank, Bool.or_eq_true, Bool.and_eq_true, decide_eq_true_eq, beq_iff_eq] at h
  unfold Utf8.IsScalar
  omega

/-- An octet that goes on with a character begins none. -/
lemma leading_of_tail? {y : Nat} (hy : Utf8.tail? b = some y) (rest : Bytes) :
    leading (b :: rest) = 0 := by
  obtain ⟨hlt, hb⟩ := Utf8.tail?_eq_some_iff.1 hy
  have hnone : Utf8.first? (b :: rest) = none := by
    simp only [Utf8.first?, UInt8.lt_iff_toNat_lt, UInt8.le_iff_toNat_le, UInt8.reduceToNat,
      Bool.and_eq_true, decide_eq_true_eq, hb]
    rw [if_neg (by omega), if_neg (by omega), if_neg (by omega), if_neg (by omega)]
  simp [leading, hnone]

namespace IsSpace

variable {w : Bytes} (h : IsSpace w)
include h

/-- White space takes at most three octets, and none begins behind the first of them. -/
lemma exists_cons :
    ∃ a tail, w = a :: tail ∧ tail.length ≤ 2 ∧ ∀ b ∈ tail, ∀ rest, leading (b :: rest) = 0 := by
  obtain ⟨code, hblank, rfl⟩ := h
  have hlow := leading_of_tail? (Utf8.tail?_toUInt8 (n := code % 64) (by omega))
  have hmid := leading_of_tail? (Utf8.tail?_toUInt8 (n := code / 64 % 64) (by omega))
  have hsmall := (isScalar_of_isBlank hblank).2
  simp only [Utf8.encode, Bool.or_eq_true, Bool.and_eq_true, decide_eq_true_eq]
  split_ifs with h1 h2 h3 h4
  · exact ⟨_, _, rfl, by simp, by simp⟩
  · exact ⟨_, _, rfl, by simp, List.forall_mem_singleton.2 hlow⟩
  · omega
  · exact ⟨_, _, rfl, by simp, List.forall_mem_cons.2 ⟨hmid, List.forall_mem_singleton.2 hlow⟩⟩
  · omega

lemma ne_nil : w ≠ [] := by
  obtain ⟨code, -, rfl⟩ := h
  exact Utf8.encode_ne_nil code

lemma leading_append (rest : Bytes) : leading (w ++ rest) = w.length := by
  obtain ⟨code, hblank, rfl⟩ := h
  simp [leading, Utf8.first?_encode_append (isScalar_of_isBlank hblank).1, hblank]

lemma leading_ne_zero (rest : Bytes) : leading (w ++ rest) ≠ 0 := by
  rw [h.leading_append]
  exact (List.length_pos_iff.2 h.ne_nil).ne'

lemma leading_eq : leading w = w.length := by simpa using h.leading_append []

lemma noInk : NoInk w := by simpa [h.leading_eq] using noInk_take_leading w

lemma trailing_append (r : Bytes) : trailing (w.reverse ++ r) = w.length := by
  have hwhole := h.leading_eq
  obtain ⟨a, tail, rfl, hlength, htail⟩ := h.exists_cons
  match tail with
  | [] =>
    have hone : leading [a] = 1 := hwhole
    match r with
    | [] | [_] | _ :: _ :: _ => simp [trailing, hone]
  | [b] =>
    have htwo : leading [a, b] = 2 := hwhole
    have hb : leading [b] = 0 := htail b (by simp) []
    cases r <;> simp [trailing, hb, htwo]
  | [b, c] =>
    have hthree : leading [a, b, c] = 3 := hwhole
    have hb : leading [b, c] = 0 := htail b (by simp) [c]
    have hc : leading [c] = 0 := htail c (by simp) []
    simp [trailing, hb, hc, hthree]

end IsSpace

lemma exists_of_leading (h : leading s ≠ 0) : ∃ w rest, IsSpace w ∧ s = w ++ rest := by
  obtain hzero | ⟨code, rest, hblank, hs, -⟩ := leading_cases s
  · exact absurd hzero h
  · exact ⟨_, rest, ⟨code, hblank, rfl⟩, hs⟩

/-! ## The white space that ends a text -/

lemma isSpace_of_leading_eq (hne : w ≠ []) (h : leading w = w.length) : IsSpace w := by
  obtain ⟨v, rest, hv, rfl⟩ := exists_of_leading (s := w) (by simpa [h] using hne)
  have hrest : rest = [] := by simpa [hv.leading_append] using h
  rwa [hrest, List.append_nil]

lemma exists_of_trailing {r : Bytes} (h : trailing r ≠ 0) :
    ∃ w rest, IsSpace w ∧ r = w.reverse ++ rest ∧ w.length = trailing r := by
  revert h
  fun_cases trailing r with
  | case1 => exact fun h => absurd rfl h
  | case2 c =>
    intro h
    have hle := leading_le_length [c]
    have hone : leading [c] = 1 := by
      rw [List.length_singleton] at hle
      omega
    exact ⟨[c], [], isSpace_of_leading_eq (by simp) hone, by simp, by simp [hone]⟩
  | case3 c b hone =>
    exact fun _ =>
      ⟨[c], [b], isSpace_of_leading_eq (by simp) (by simpa using hone), by simp, by simp⟩
  | case4 c b hone htwo =>
    exact fun _ =>
      ⟨[b, c], [], isSpace_of_leading_eq (by simp) (by simpa using htwo), by simp, by simp⟩
  | case5 => exact fun h => absurd rfl h
  | case6 c b a rest hone =>
    exact fun _ =>
      ⟨[c], b :: a :: rest, isSpace_of_leading_eq (by simp) (by simpa using hone), by simp, by simp⟩
  | case7 c b a rest hone htwo =>
    exact fun _ =>
      ⟨[b, c], a :: rest, isSpace_of_leading_eq (by simp) (by simpa using htwo), by simp, by simp⟩
  | case8 c b a rest hone htwo hthree =>
    exact fun _ =>
      ⟨[a, b, c], rest, isSpace_of_leading_eq (by simp) (by simpa using hthree), by simp, by simp⟩
  | case9 => exact fun h => absurd rfl h

lemma exists_space_of_trailing (h : trailing s.reverse ≠ 0) :
    ∃ front w, IsSpace w ∧ s = front ++ w := by
  obtain ⟨w, rest, hw, hs, -⟩ := exists_of_trailing h
  exact ⟨rest.reverse, w, hw, by simpa using congrArg List.reverse hs⟩

lemma noInk_take_trailing (r : Bytes) : NoInk (r.take (trailing r)) := by
  by_cases hzero : trailing r = 0
  · simp [hzero, NoInk]
  · obtain ⟨w, rest, hw, hr, hlength⟩ := exists_of_trailing hzero
    intro b hb
    rw [← hlength, hr, List.take_left' (by simp), List.mem_reverse] at hb
    exact hw.noInk b hb

lemma trailing_ink (h : IsInk b) (rest : Bytes) : trailing (b :: rest) = 0 := by
  by_contra hne
  obtain ⟨w, rest', hw, heq, -⟩ := exists_of_trailing hne
  obtain ⟨c, tail, hreverse⟩ := List.exists_cons_of_ne_nil (List.reverse_ne_nil_iff.2 hw.ne_nil)
  rw [hreverse, List.cons_append, List.cons.injEq] at heq
  exact hw.noInk b (List.mem_reverse.1 (by simp [hreverse, heq.1])) h

lemma isSpace_space : IsSpace [32] := ⟨32, rfl, rfl⟩

lemma trailing_space (rest : Bytes) : trailing (32 :: rest) = 1 :=
  isSpace_space.trailing_append rest

/-! ## Trimming -/

lemma trimStart_of_leading (h : leading s = 0) : trimStart s = s := by
  cases s with
  | nil => rfl
  | cons b rest => simp [trimStart, dropLeading, h]

lemma trimEnd_of_trailing (h : trailing s.reverse = 0) : trimEnd s = s := by
  have hend : dropTrailing 0 s.reverse = s.reverse := by
    cases hs : s.reverse with
    | nil => rfl
    | cons b rest =>
      rw [hs] at h
      simp [dropTrailing, h]
  rw [trimEnd, hend, List.reverse_reverse]

lemma dropLeading_length_append (front rest : Bytes) :
    dropLeading front.length (front ++ rest) = dropLeading 0 rest := by
  induction front with
  | nil => rfl
  | cons b front ih => exact ih

lemma dropTrailing_length_append (front rest : Bytes) :
    dropTrailing front.length (front ++ rest) = dropTrailing 0 rest := by
  induction front with
  | nil => rfl
  | cons b front ih => exact ih

lemma IsSpace.trimStart_append (h : IsSpace w) (rest : Bytes) :
    trimStart (w ++ rest) = trimStart rest := by
  have hleading := h.leading_append rest
  obtain ⟨a, tail, rfl⟩ := List.exists_cons_of_ne_nil h.ne_nil
  rw [List.cons_append, List.length_cons] at hleading
  rw [trimStart, List.cons_append, dropLeading, hleading]
  exact dropLeading_length_append tail rest

lemma IsSpace.trimEnd_append (h : IsSpace w) (front : Bytes) :
    trimEnd (front ++ w) = trimEnd front := by
  have htrailing := h.trailing_append front.reverse
  rw [← List.length_reverse] at htrailing
  rw [trimEnd, List.reverse_append]
  obtain ⟨a, tail, hreverse⟩ := List.exists_cons_of_ne_nil (List.reverse_ne_nil_iff.2 h.ne_nil)
  rw [hreverse, List.cons_append, List.length_cons] at htrailing
  rw [hreverse, List.cons_append, dropTrailing, htrailing]
  exact congrArg List.reverse (dropTrailing_length_append tail front.reverse)

/-- A text begins with no white space, or it is a character of it in front of a text. -/
lemma front_induction {motive : Bytes → Prop} (stop : ∀ s, leading s = 0 → motive s)
    (step : ∀ w s, IsSpace w → motive s → motive (w ++ s)) (s : Bytes) : motive s := by
  by_cases hzero : leading s = 0
  · exact stop s hzero
  · obtain ⟨w, rest, hw, hs⟩ := exists_of_leading hzero
    rw [hs]
    exact step w rest hw (front_induction stop step rest)
termination_by s.length
decreasing_by
  have := List.length_pos_iff.2 hw.ne_nil
  simp only [hs, List.length_append]
  omega

lemma back_induction {motive : Bytes → Prop} (stop : ∀ s, trailing s.reverse = 0 → motive s)
    (step : ∀ s w, IsSpace w → motive s → motive (s ++ w)) (s : Bytes) : motive s := by
  by_cases hzero : trailing s.reverse = 0
  · exact stop s hzero
  · obtain ⟨front, w, hw, hs⟩ := exists_space_of_trailing hzero
    rw [hs]
    exact step front w hw (back_induction stop step front)
termination_by s.length
decreasing_by
  have := List.length_pos_iff.2 hw.ne_nil
  simp only [hs, List.length_append]
  omega

lemma leading_trimStart (s : Bytes) : leading (trimStart s) = 0 := by
  induction s using front_induction with
  | stop s hzero => rwa [trimStart_of_leading hzero]
  | step w s hw ih => rwa [hw.trimStart_append]

lemma trailing_trimEnd (s : Bytes) : trailing (trimEnd s).reverse = 0 := by
  induction s using back_induction with
  | stop s hzero => rwa [trimEnd_of_trailing hzero]
  | step s w hw ih => rwa [hw.trimEnd_append]

lemma exists_trimStart (s : Bytes) : ∃ gap, s = gap ++ trimStart s ∧ NoInk gap := by
  induction s using front_induction with
  | stop s hzero => exact ⟨[], by simp [trimStart_of_leading hzero], by simp [NoInk]⟩
  | step w s hw ih =>
    obtain ⟨gap, heq, hgap⟩ := ih
    exact ⟨w ++ gap, by rw [hw.trimStart_append, List.append_assoc, ← heq], hw.noInk.append hgap⟩

lemma exists_trimEnd (s : Bytes) : ∃ gap, s = trimEnd s ++ gap ∧ NoInk gap := by
  induction s using back_induction with
  | stop s hzero => exact ⟨[], by simp [trimEnd_of_trailing hzero], by simp [NoInk]⟩
  | step s w hw ih =>
    obtain ⟨gap, heq, hgap⟩ := ih
    exact ⟨gap ++ w, by rw [hw.trimEnd_append, ← List.append_assoc, ← heq], hgap.append hw.noInk⟩

/-- Trimming takes white space from the ends, and nothing that shows. -/
lemma exists_trim (s : Bytes) :
    ∃ before after, s = before ++ trim s ++ after ∧ NoInk before ∧ NoInk after := by
  obtain ⟨before, hstart, hbefore⟩ := exists_trimStart s
  obtain ⟨after, hend, hafter⟩ := exists_trimEnd (trimStart s)
  exact ⟨before, after, by rw [trim, List.append_assoc, ← hend, ← hstart], hbefore, hafter⟩

lemma count_trim (hb : IsInk b) (s : Bytes) : (trim s).count b = s.count b := by
  obtain ⟨before, after, hs, hbefore, hafter⟩ := exists_trim s
  conv_rhs => rw [hs]
  simp [hbefore.count_eq_zero hb, hafter.count_eq_zero hb]

lemma mem_trim (hb : IsInk b) : b ∈ trim s ↔ b ∈ s := by
  rw [← List.count_pos_iff, count_trim hb, List.count_pos_iff]

/-- A text that neither begins nor ends with white space. -/
structure Tight (s : Bytes) : Prop where
  first : leading s = 0
  last : trailing s.reverse = 0

lemma Tight.trim_eq (h : Tight s) : trim s = s := by
  rw [trim, trimStart_of_leading h.first, trimEnd_of_trailing h.last]

lemma trim_of_ink (h : ∀ b ∈ s, IsInk b) : trim s = s := by
  refine Tight.trim_eq ⟨?_, ?_⟩
  · cases s with
    | nil => rfl
    | cons b s => exact leading_ink (h b List.mem_cons_self) s
  · cases hs : s.reverse with
    | nil => rfl
    | cons b rest => exact trailing_ink (h b (List.mem_reverse.1 (by simp [hs]))) rest

lemma Tight.append_onlyIf (h : Tight s) (hne : s ≠ []) (condition : Bool) {first last : UInt8}
    (hfirst : first < 0x80) (between : Bytes) (hlast : IsInk last) :
    Tight (s ++ Bytes.onlyIf condition (first :: between ++ [last])) := by
  cases condition with
  | false => simpa [Bytes.onlyIf] using h
  | true =>
    refine ⟨?_, ?_⟩
    · rw [leading_append hne (by simpa [Bytes.onlyIf] using hfirst), h.first]
    · simp [Bytes.onlyIf, trailing_ink hlast]

/-! ## Words -/

/-- A text that is not empty and in which no white space begins. -/
structure Solid (w : Bytes) : Prop where
  ne_nil : w ≠ []
  leading_eq : ∀ t, t <:+ w → leading t = 0

def IsWord (w : Bytes) : Prop := w ≠ [] ∧ ∀ b ∈ w, IsInk b

instance : DecidablePred IsWord := fun w => inferInstanceAs (Decidable (w ≠ [] ∧ ∀ b ∈ w, IsInk b))

lemma IsWord.solid (h : IsWord w) : Solid w where
  ne_nil := h.1
  leading_eq := by
    intro t ht
    cases t with
    | nil => exact leading_nil
    | cons b rest => exact leading_ink (h.2 b (ht.mem (by simp))) rest

lemma Solid.trailing_append (hw : Solid w) {front : Bytes}
    (hfront : ∀ b ∈ front.getLast?, b < 0x80) : trailing (front ++ w).reverse = 0 := by
  by_contra hne
  obtain ⟨rest, t, hspace, hsplit⟩ := exists_space_of_trailing hne
  have hnot : ¬ t <:+ w :=
    fun hsuffix => hspace.leading_ne_zero [] (by rw [List.append_nil, hw.leading_eq t hsuffix])
  rcases List.append_eq_append_iff.1 hsplit with ⟨more, -, hmore⟩ | ⟨more, hmore, ht⟩
  · exact hnot ⟨more, hmore.symm⟩
  · -- White space would begin in front of the word, where the octet next to it is ASCII.
    obtain rfl | ⟨init, b, rfl⟩ := List.eq_nil_or_concat' more
    · exact hnot ⟨[], by simpa using ht⟩
    · have hpos := List.length_pos_iff.2 hw.ne_nil
      refine leading_ne_length (hfront b ?_) (b := b) ?_ ?_ hspace.leading_eq
      · rw [hmore, ← List.append_assoc]
        simp
      · simp [ht]
      · simp only [ht, List.length_append, List.length_singleton]
        omega

/-- A text of words ends with the last of them, behind a space if it is not the only one. -/
lemma join_last (hne : ws ≠ []) :
    ∃ front, Bytes.join " " ws = front ++ ws.getLast hne ∧ ∀ b ∈ front.getLast?, b < 0x80 := by
  induction ws with
  | nil => exact absurd rfl hne
  | cons w ws ih =>
    cases ws with
    | nil => exact ⟨[], by simp [Bytes.join], by simp⟩
    | cons next ws =>
      obtain ⟨front, heq, hfront⟩ := ih (by simp)
      refine ⟨w ++ (" " ++ front), by simp [Bytes.join_cons_cons, heq], fun b hb => ?_⟩
      by_cases hnil : front = []
      · have hspace : b = 32 := by simpa [hnil, Bytes.ofString_space, eq_comm] using hb
        rw [hspace]
        decide
      · rw [List.getLast?_append_of_ne_nil _ (by simp [hnil]),
          List.getLast?_append_of_ne_nil _ hnil] at hb
        exact hfront b hb

lemma getLast?_join (hne : ws ≠ []) (hlast : ws.getLast hne ≠ []) :
    (Bytes.join " " ws).getLast? = (ws.getLast hne).getLast? := by
  obtain ⟨front, heq, -⟩ := join_last hne
  rw [heq, List.getLast?_append_of_ne_nil _ hlast]

lemma join_ne_nil (hne : ws ≠ []) (hws : ∀ w ∈ ws, Solid w) : Bytes.join " " ws ≠ [] := by
  obtain ⟨front, heq, -⟩ := join_last hne
  rw [heq]
  exact List.append_ne_nil_of_right_ne_nil front (hws _ (List.getLast_mem hne)).ne_nil

lemma tight_join (hne : ws ≠ []) (hws : ∀ w ∈ ws, Solid w) : Tight (Bytes.join " " ws) where
  first := by
    obtain ⟨w, ws, rfl⟩ := List.exists_cons_of_ne_nil hne
    have hw := hws w (by simp)
    rw [Bytes.join, leading_append hw.ne_nil, hw.leading_eq w (List.suffix_refl w)]
    cases ws with
    | nil => simp
    | cons next ws => simp [Bytes.ofString_space]
  last := by
    obtain ⟨front, heq, hfront⟩ := join_last hne
    rw [heq]
    exact (hws _ (List.getLast_mem hne)).trailing_append hfront

lemma wordsFrom_append (hw : ∀ t, t <:+ w → leading t = 0)
    (hrest : ∀ b ∈ rest.head?, b < 0x80) (done : List Bytes) (word : Bytes) :
    wordsFrom done word 0 (w ++ rest) = wordsFrom done (w.reverse ++ word) 0 rest := by
  induction w generalizing word with
  | nil => rfl
  | cons b w ih =>
    have hzero : leading (b :: (w ++ rest)) = 0 := by
      rw [← List.cons_append, leading_append (by simp) hrest, hw _ (List.suffix_refl _)]
    have hstep := ih (fun t ht => hw t (ht.trans (List.suffix_cons b w))) (b :: word)
    simp [wordsFrom, hzero, hstep]

lemma words_join (hws : ∀ w ∈ ws, Solid w) : words (Bytes.join " " ws) = ws := by
  have hfrom : ∀ done : List Bytes, wordsFrom done [] 0 (Bytes.join " " ws) =
      done.reverse ++ ws := by
    induction ws with
    | nil => simp [Bytes.join, wordsFrom]
    | cons w ws ih =>
      intro done
      rw [List.forall_mem_cons] at hws
      obtain ⟨hw, hrest⟩ := hws
      cases ws with
      | nil =>
        have hstep : wordsFrom done [] 0 (w ++ []) = wordsFrom done (w.reverse ++ []) 0 [] :=
          wordsFrom_append hw.leading_eq (by simp) done []
        simp only [List.append_nil] at hstep
        simp [Bytes.join, hstep, wordsFrom, hw.ne_nil]
      | cons w' ws =>
        rw [Bytes.join_cons_cons, Bytes.ofString_space, List.singleton_append,
          wordsFrom_append hw.leading_eq (by simp), ← Bytes.ofString_space, wordsFrom]
        simp only [leading_space]
        rw [ih hrest]
        simp [hw.ne_nil]
  exact hfrom []

/-- A word that has been read is solid, whatever stands behind it. -/
lemma solid_reverse (hword : ∀ t, t <:+ word.reverse → t ≠ [] → leading (t ++ s) = 0)
    (hne : word ≠ []) : Solid word.reverse where
  ne_nil := by simpa using hne
  leading_eq := by
    intro t ht
    by_cases hnil : t = []
    · rw [hnil, leading_nil]
    · exact leading_of_append (hword t ht hnil)

lemma solid_of_mem_close {done : List Bytes}
    (hword : ∀ t, t <:+ word.reverse → t ≠ [] → leading (t ++ s) = 0)
    (hw : w ∈ if word.isEmpty then done else word.reverse :: done) : w ∈ done ∨ Solid w := by
  by_cases hempty : word = []
  · exact .inl (by simpa [hempty] using hw)
  · rw [if_neg (by simpa using hempty), List.mem_cons] at hw
    exact hw.elim (fun heq => .inr (heq ▸ solid_reverse hword hempty)) .inl

/-- White space begins nowhere in the word being read, and while octets are skipped there is no such
word. -/
lemma solid_of_mem_wordsFrom {done : List Bytes} {skip : Nat}
    (hskip : skip ≠ 0 → word = []) (hword : ∀ t, t <:+ word.reverse → t ≠ [] → leading (t ++ s) = 0)
    (hw : w ∈ wordsFrom done word skip s) : w ∈ done ∨ Solid w := by
  fun_induction wordsFrom done word skip s with
  | case1 done word skip => exact solid_of_mem_close hword (by simpa using hw)
  | case2 done word skip b rest ih =>
    have hnil : word = [] := hskip (by simp)
    exact ih (fun _ => hnil) (by simp [hnil]) hw
  | case3 done word b rest hzero ih =>
    refine ih (by simp) (fun t ht hne => ?_) hw
    rw [List.reverse_cons, List.suffix_concat_iff] at ht
    obtain ⟨t, rfl, hsuffix⟩ := ht.resolve_left hne
    rw [List.append_assoc, List.singleton_append]
    by_cases hnil : t = []
    · rw [hnil, List.nil_append, hzero]
    · exact hword t hsuffix hnil
  | case4 done word b rest n hn ih =>
    obtain hdone | hsolid := ih (fun _ => rfl) (by simp) hw
    · exact solid_of_mem_close hword hdone
    · exact .inr hsolid

lemma solid_of_mem_words (hw : w ∈ words s) : Solid w :=
  (solid_of_mem_wordsFrom (by simp) (by simp) hw).resolve_left (by simp)

/-- Splitting loses nothing that shows. -/
lemma count_wordsFrom {ink : UInt8} (hink : IsInk ink) (done : List Bytes) (word : Bytes)
    (skip : Nat) (s : Bytes) : (wordsFrom done word skip s).flatten.count ink =
      done.flatten.count ink + word.count ink + (s.drop skip).count ink := by
  have hclose : ∀ (done : List Bytes) (word : Bytes),
      (if word.isEmpty then done else word.reverse :: done).flatten.count ink =
        done.flatten.count ink + word.count ink := by
    intro done word
    by_cases hempty : word = []
    · simp [hempty]
    · simp [hempty, Nat.add_comm]
  fun_induction wordsFrom done word skip s with
  | case1 done word skip => simpa [(List.reverse_perm _).flatten.count_eq] using hclose done word
  | case2 done word skip b rest ih => simpa using ih
  | case3 done word b rest hzero ih =>
    simp only [ih, List.drop_zero, List.count_cons]
    omega
  | case4 done word b rest n hn ih =>
    have hgap := (noInk_take_leading (b :: rest)).count_drop hink
    rw [hn, List.drop_succ_cons] at hgap
    rw [ih, hclose, hgap]
    simp

lemma count_words {ink : UInt8} (hink : IsInk ink) (s : Bytes) :
    (words s).flatten.count ink = s.count ink := by
  rw [words, count_wordsFrom hink]
  simp

end Blank

end UiCodegen
