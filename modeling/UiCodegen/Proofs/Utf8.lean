import Mathlib
import UiCodegen.Text.Utf8

/-!
# Texts and their code points

Reading octets and encoding code points undo each other.  What is read as a code point is its
encoding (`eq_encode_of_first?`), and an encoding is read as its code point whatever follows
(`first?_encode_append`).  An octet beyond ASCII belongs to a run of such octets that is read as one
code point beyond ASCII, well-formed or not (`codes_cons_of_le`).
-/

namespace UiCodegen.Utf8

variable {code n : Nat} {rest s t : Bytes} {b : UInt8}

/-- A code point that an encoding can stand for: no surrogate, and none beyond U+10FFFF. -/
def IsScalar (code : Nat) : Prop := code < 0xD800 ∨ (0xDFFF < code ∧ code ≤ 0x10FFFF)

lemma toNat_toUInt8 (h : n < 256) : n.toUInt8.toNat = n := by
  simp [Nat.mod_eq_of_lt h]

lemma toUInt8_toNat_eq (h : b.toNat = n) : n.toUInt8 = b := by
  subst h
  simp

lemma tail?_eq_some_iff {y : Nat} : tail? b = some y ↔ y < 64 ∧ b.toNat = 0x80 + y := by
  simp only [tail?, UInt8.le_iff_toNat_le, UInt8.reduceToNat, Bool.and_eq_true, decide_eq_true_eq,
    Option.ite_none_right_eq_some, Option.some.injEq]
  omega

lemma tail?_toUInt8 (h : n < 64) : tail? (0x80 + n).toUInt8 = some n :=
  tail?_eq_some_iff.2 ⟨h, toNat_toUInt8 (by omega)⟩

lemma first?_encode_append (h : IsScalar code) (rest : Bytes) :
    first? (encode code ++ rest) = some (code, (encode code).length) := by
  have hlow := tail?_toUInt8 (n := code % 64) (by omega)
  have hmid := tail?_toUInt8 (n := code / 64 % 64) (by omega)
  have hhigh := tail?_toUInt8 (n := code / 4096 % 64) (by omega)
  unfold IsScalar at h
  simp only [encode, Bool.or_eq_true, Bool.and_eq_true, decide_eq_true_eq]
  split_ifs with h1 h2 h3 h4
  · obtain ⟨a, ha, hnat⟩ : ∃ a, code.toUInt8 = a ∧ a.toNat = code :=
      ⟨_, rfl, toNat_toUInt8 (by omega)⟩
    simp only [ha, List.cons_append, first?, UInt8.lt_iff_toNat_lt, UInt8.reduceToNat,
      hnat, if_pos h1]
    rfl
  · obtain ⟨a, ha, hnat⟩ : ∃ a, (0xC0 + code / 64).toUInt8 = a ∧ a.toNat = 0xC0 + code / 64 :=
      ⟨_, rfl, toNat_toUInt8 (by omega)⟩
    simp only [ha, List.cons_append, first?, UInt8.lt_iff_toNat_lt, UInt8.le_iff_toNat_le,
      UInt8.reduceToNat, Bool.and_eq_true, decide_eq_true_eq, hnat, hlow, Option.map_some]
    rw [if_neg (by omega), if_pos (by omega), show (0xC0 + code / 64 - 0xC0) * 64 + code % 64 =
      code by omega]
    rfl
  · omega
  · obtain ⟨a, ha, hnat⟩ : ∃ a, (0xE0 + code / 4096).toUInt8 = a ∧ a.toNat = 0xE0 + code / 4096 :=
      ⟨_, rfl, toNat_toUInt8 (by omega)⟩
    simp only [ha, List.cons_append, first?, UInt8.lt_iff_toNat_lt, UInt8.le_iff_toNat_le,
      UInt8.reduceToNat,
      Bool.and_eq_true, Bool.or_eq_true, decide_eq_true_eq, hnat, hlow, hmid, Option.bind_eq_bind,
        Option.bind_some]
    rw [if_neg (by omega), if_neg (by omega), if_pos (by omega),
      show ((0xE0 + code / 4096 - 0xE0) * 64 + code / 64 % 64) * 64 + code % 64 = code by omega,
        if_neg (by omega)]
    rfl
  · obtain ⟨a, ha, hnat⟩ : ∃ a, (0xF0 + code / 262144).toUInt8 = a ∧ a.toNat =
      0xF0 + code / 262144 :=
      ⟨_, rfl, toNat_toUInt8 (by omega)⟩
    simp only [ha, List.cons_append, first?, UInt8.lt_iff_toNat_lt, UInt8.le_iff_toNat_le,
      UInt8.reduceToNat,
      Bool.and_eq_true, Bool.or_eq_true, decide_eq_true_eq, hnat, hlow, hmid, hhigh,
        Option.bind_eq_bind,
      Option.bind_some]
    rw [if_neg (by omega), if_neg (by omega), if_neg (by omega), if_pos (by omega),
      show (((0xF0 + code / 262144 - 0xF0) * 64 + code / 4096 % 64) * 64 + code / 64 % 64) * 64 +
        code % 64 = code by omega, if_neg (by omega)]
    rfl

lemma eq_encode_of_first? {size : Nat} (h : first? s = some (code, size)) :
    IsScalar code ∧ (∃ rest, s = encode code ++ rest) ∧ size = (encode code).length := by
  unfold first? at h
  split at h
  · cases h
  rename_i a rest
  simp only [UInt8.lt_iff_toNat_lt, UInt8.le_iff_toNat_le, UInt8.reduceToNat, Bool.and_eq_true,
    decide_eq_true_eq] at h
  split_ifs at h with h1 h2 h3 h4
  · cases h
    refine ⟨.inl (by omega), ⟨rest, ?_⟩, ?_⟩
    all_goals simp [encode, h1]
  · split at h
    · rename_i b rest
      obtain ⟨y, hy, hcode⟩ := Option.map_eq_some_iff.1 h
      obtain ⟨hlt, hb⟩ := tail?_eq_some_iff.1 hy
      cases hcode
      have hencode : encode ((a.toNat - 0xC0) * 64 + y) = [a, b] := by
        rw [encode, if_neg (by omega), if_pos (by omega), toUInt8_toNat_eq (b := a) (by omega),
          toUInt8_toNat_eq (b := b) (by omega)]
      rw [hencode]
      exact ⟨.inl (by omega), ⟨rest, rfl⟩, rfl⟩
    · cases h
  · split at h
    · rename_i b c rest
      simp only [Option.bind_eq_bind, Option.bind_eq_some_iff, Bool.or_eq_true, Bool.and_eq_true,
        decide_eq_true_eq, Option.ite_none_left_eq_some, Option.some.injEq] at h
      obtain ⟨y, hy, z, hz, hvalid, hcode⟩ := h
      obtain ⟨hylt, hb⟩ := tail?_eq_some_iff.1 hy
      obtain ⟨hzlt, hc⟩ := tail?_eq_some_iff.1 hz
      cases hcode
      have hencode : encode (((a.toNat - 0xE0) * 64 + y) * 64 + z) = [a, b, c] := by
        simp only [encode, Bool.or_eq_true, Bool.and_eq_true, decide_eq_true_eq]
        rw [if_neg (by omega), if_neg (by omega), if_neg (by omega), if_pos (by omega),
          toUInt8_toNat_eq (b := a) (by omega), toUInt8_toNat_eq (b := b) (by omega),
          toUInt8_toNat_eq (b := c) (by omega)]
      rw [hencode]
      exact ⟨by unfold IsScalar; omega, ⟨rest, rfl⟩, rfl⟩
    · cases h
  · split at h
    · rename_i b c d rest
      simp only [Option.bind_eq_bind, Option.bind_eq_some_iff, Bool.or_eq_true, decide_eq_true_eq,
        Option.ite_none_left_eq_some, Option.some.injEq] at h
      obtain ⟨y, hy, z, hz, w, hw, hvalid, hcode⟩ := h
      obtain ⟨hylt, hb⟩ := tail?_eq_some_iff.1 hy
      obtain ⟨hzlt, hc⟩ := tail?_eq_some_iff.1 hz
      obtain ⟨hwlt, hd⟩ := tail?_eq_some_iff.1 hw
      cases hcode
      have hencode : encode ((((a.toNat - 0xF0) * 64 + y) * 64 + z) * 64 + w) = [a, b, c, d] := by
        simp only [encode, Bool.or_eq_true, Bool.and_eq_true, decide_eq_true_eq]
        rw [if_neg (by omega), if_neg (by omega), if_neg (by omega), if_neg (by omega),
          toUInt8_toNat_eq (b := a) (by omega), toUInt8_toNat_eq (b := b) (by omega),
          toUInt8_toNat_eq (b := c) (by omega), toUInt8_toNat_eq (b := d) (by omega)]
      rw [hencode]
      exact ⟨by unfold IsScalar; omega, ⟨rest, rfl⟩, rfl⟩
    · cases h

/-! ## Symbols -/

lemma symbolsFrom_eq (acc : List Symbol) (skip : Nat) (s : Bytes) :
    symbolsFrom acc skip s = acc.reverse ++ symbolsFrom [] skip s := by
  induction s generalizing acc skip with
  | nil => simp [symbolsFrom]
  | cons b rest ih =>
    cases skip with
    | succ skip => exact ih acc skip
    | zero =>
      simp only [symbolsFrom]
      cases first? (b :: rest) with
      | none =>
        dsimp only
        rw [ih, ih [_]]
        simp
      | some p =>
        dsimp only
        rw [ih, ih [_]]
        simp

lemma symbolsFrom_length (acc : List Symbol) (front rest : Bytes) :
    symbolsFrom acc front.length (front ++ rest) = symbolsFrom acc 0 rest := by
  induction front with
  | nil => rfl
  | cons b front ih => exact ih

lemma encode_ne_nil (code : Nat) : encode code ≠ [] := by
  unfold encode
  split_ifs
  all_goals exact List.cons_ne_nil _ _

lemma symbols_encode_append (h : IsScalar code) (rest : Bytes) :
    symbols (encode code ++ rest) = .char code :: symbols rest := by
  have hfirst := first?_encode_append h rest
  obtain ⟨b, tail, hencode⟩ := List.exists_cons_of_ne_nil (encode_ne_nil code)
  rw [hencode] at hfirst ⊢
  rw [symbols, List.cons_append, symbolsFrom, ← List.cons_append, hfirst]
  dsimp only
  rw [List.length_cons, Nat.add_sub_cancel, symbolsFrom_length, symbolsFrom_eq]
  rfl

lemma symbols_of_first?_eq_none (h : first? (b :: rest) = none) :
    symbols (b :: rest) = .stray b :: symbols rest := by
  rw [symbols, symbolsFrom, h, symbolsFrom_eq]
  rfl

/-! ## Texts -/

/-- Text that is well-formed throughout: the encodings of code points one after the other. -/
inductive IsText : Bytes → Prop
  | nil : IsText []
  | char {code : Nat} {rest : Bytes} (hcode : IsScalar code) (hrest : IsText rest) :
      IsText (encode code ++ rest)

lemma isScalar_replacement : IsScalar replacement := by
  unfold IsScalar replacement
  omega

lemma codes_encode_append (h : IsScalar code) (rest : Bytes) :
    codes (encode code ++ rest) = code :: codes rest := by
  rw [codes, symbols_encode_append h]
  rfl

lemma IsText.append (hs : IsText s) (ht : IsText t) : IsText (s ++ t) := by
  induction hs with
  | nil => exact ht
  | char hcode _ ih =>
    rw [List.append_assoc]
    exact .char hcode ih

/-- Whatever is no code point is written as U+FFFD. -/
lemma isText_encode (code : Nat) : IsText (encode code) := by
  by_cases h : IsScalar code
  · simpa using IsText.char h .nil
  · have hencode : encode code = encode replacement := by
      unfold IsScalar at h
      simp only [encode, replacement, Bool.or_eq_true, Bool.and_eq_true, decide_eq_true_eq]
      rw [if_neg (by omega), if_neg (by omega), if_pos (by omega)]
      rfl
    rw [hencode]
    simpa using IsText.char isScalar_replacement .nil

lemma isScalar_of_lt (h : code < 0x80) : IsScalar code := .inl (by omega)

lemma encode_toNat (h : b < 0x80) : encode b.toNat = [b] := by
  have hnat : b.toNat < 0x80 := UInt8.lt_iff_toNat_lt.1 h
  rw [encode, if_pos hnat, toUInt8_toNat_eq rfl]

lemma isText_of_ascii (h : ∀ b ∈ s, b < 0x80) : IsText s := by
  induction s with
  | nil => exact .nil
  | cons b rest ih =>
    obtain ⟨hb, hrest⟩ := List.forall_mem_cons.1 h
    exact (encode_toNat hb ▸ isText_encode b.toNat : IsText [b]).append (ih hrest)

lemma codes_cons_of_lt (h : b < 0x80) (rest : Bytes) :
    codes (b :: rest) = b.toNat :: codes rest := by
  rw [← codes_encode_append (isScalar_of_lt (UInt8.lt_iff_toNat_lt.1 h)), encode_toNat h]
  rfl

lemma le_of_mem_encode (h : 0x80 ≤ code) (hb : b ∈ encode code) : 0x80 ≤ b := by
  have hlarge : ∀ n, 0x80 ≤ n → n < 256 → (0x80 : UInt8) ≤ n.toUInt8 := by
    intro n hlo hhi
    rw [UInt8.le_iff_toNat_le, toNat_toUInt8 hhi]
    exact hlo
  simp only [encode, Bool.or_eq_true, Bool.and_eq_true, decide_eq_true_eq] at hb
  split_ifs at hb with h1 h2 h3 h4
  · omega
  · simp only [List.mem_cons, List.not_mem_nil, or_false] at hb
    obtain rfl | rfl := hb
    all_goals exact hlarge _ (by omega) (by omega)
  · simp only [List.mem_cons, List.not_mem_nil, or_false] at hb
    obtain rfl | rfl | rfl := hb
    all_goals decide
  · simp only [List.mem_cons, List.not_mem_nil, or_false] at hb
    obtain rfl | rfl | rfl := hb
    all_goals exact hlarge _ (by omega) (by omega)
  · simp only [List.mem_cons, List.not_mem_nil, or_false] at hb
    obtain rfl | rfl | rfl | rfl := hb
    all_goals exact hlarge _ (by omega) (by omega)

/-- An ASCII octet is in the encoding of no character but its own. -/
lemma eq_of_mem_encode (h : b < 0x80) (hb : b ∈ encode code) : code = b.toNat := by
  by_cases hascii : code < 0x80
  · rw [encode, if_pos hascii, List.mem_singleton] at hb
    rw [hb, toNat_toUInt8 (by omega)]
  · exact absurd (le_of_mem_encode (by omega) hb) (UInt8.not_le.2 h)

lemma first?_append_of_some {size : Nat} (h : first? t = some (code, size)) (rest : Bytes) :
    first? (t ++ rest) = some (code, size) := by
  obtain ⟨hcode, ⟨after, rfl⟩, rfl⟩ := eq_encode_of_first? h
  rw [List.append_assoc]
  exact first?_encode_append hcode (after ++ rest)

/-- ASCII does not continue a character. -/
lemma first?_append (ht : t ≠ []) (hrest : ∀ b ∈ rest.head?, b < 0x80) :
    first? (t ++ rest) = first? t := by
  cases hfirst : first? t with
  | some p => exact first?_append_of_some hfirst rest
  | none =>
    by_contra hsome
    obtain ⟨⟨code, size⟩, hread⟩ := Option.ne_none_iff_exists'.1 hsome
    obtain ⟨hcode, ⟨after, heq⟩, -⟩ := eq_encode_of_first? hread
    rcases List.append_eq_append_iff.1 heq with ⟨more, hencode, hmore⟩ | ⟨more, rfl, -⟩
    · -- The character would reach into `rest`, which begins with ASCII.
      cases more with
      | nil =>
        rw [List.append_nil] at hencode
        have hself := first?_encode_append hcode []
        rw [List.append_nil, hencode, hfirst] at hself
        cases hself
      | cons b more =>
        have hb : b < 0x80 := hrest b (by simp [hmore])
        have hascii : code = b.toNat :=
          eq_of_mem_encode hb (hencode ▸ List.mem_append_right t (by simp))
        rw [hascii, encode_toNat hb] at hencode
        have hlength := congrArg List.length hencode
        have hpos := List.length_pos_iff.2 ht
        simp only [List.length_append, List.length_cons, List.length_nil] at hlength
        omega
    · rw [first?_encode_append hcode] at hfirst
      cases hfirst

/-- What begins with an octet beyond ASCII begins with no ASCII character. -/
lemma le_of_cons_eq_encode_append {after : Bytes} (h : 0x80 ≤ b)
    (heq : b :: rest = encode code ++ after) : 0x80 ≤ code := by
  by_contra hsmall
  have hencode : encode code = [code.toUInt8] := if_pos (by omega)
  rw [hencode] at heq
  cases heq
  rw [UInt8.le_iff_toNat_le, toNat_toUInt8 (by omega)] at h
  exact hsmall h

/-- An octet beyond ASCII begins a run of such octets that is read as one code point beyond ASCII.
-/
lemma codes_cons_of_le (h : 0x80 ≤ b) (rest : Bytes) :
    ∃ code front after, b :: rest = front ++ after ∧ front ≠ [] ∧ (∀ x ∈ front, 0x80 ≤ x) ∧
      IsScalar code ∧ 0x80 ≤ code ∧ codes (b :: rest) = code :: codes after := by
  cases hfirst : first? (b :: rest) with
  | none =>
    refine ⟨replacement, [b], rest, rfl, by simp, by simpa using h,
      isScalar_replacement, by decide, ?_⟩
    rw [codes, symbols_of_first?_eq_none hfirst]
    rfl
  | some p =>
    obtain ⟨code, size⟩ := p
    obtain ⟨hcode, ⟨after, hafter⟩, -⟩ := eq_encode_of_first? hfirst
    have hlarge : 0x80 ≤ code := le_of_cons_eq_encode_append h hafter
    have hfront : ∀ x ∈ encode code, 0x80 ≤ x := fun x => le_of_mem_encode hlarge
    refine ⟨code, encode code, after, hafter, encode_ne_nil code, hfront, hcode, hlarge, ?_⟩
    rw [hafter, codes_encode_append hcode]

end UiCodegen.Utf8
