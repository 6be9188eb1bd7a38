import UiCodegen.Proofs.Steps

/-!
# Numbered names

Entities, locals and static objects are told apart by a number behind an underscore: `label_3`, `with_1`,
`c_str_2`. The digits of a number hold no underscore, so the last one of such a name stands in front of its
number, and the name determines both the stem and the number.  What comes in front of the last one
may hold underscores and digits itself; nothing is assumed about it.
-/

namespace UiCodegen.Transpile

lemma code_of_mem_toDigits {n : Nat} {c : Char} (hc : c ∈ Nat.toDigits 10 n) :
    (48 ≤ c.toNat ∧ c.toNat ≤ 57) ∧ c.toNat.toUInt8.toNat = c.toNat := by
  have hdigit : c.isDigit = true := Nat.isDigit_of_mem_toDigits (by omega) (by omega) hc
  have hrange : 48 ≤ c.toNat ∧ c.toNat ≤ 57 := by
    simpa [Char.isDigit, UInt32.le_iff_toNat_le] using hdigit
  refine ⟨hrange, ?_⟩
  rw [UInt8.toNat_ofNat']
  omega

lemma isDigit_of_mem_ofNat {n : Nat} {b : UInt8} (hb : b ∈ Bytes.ofNat n) :
    Bytes.isDigit b = true := by
  obtain ⟨c, hc, rfl⟩ := List.mem_map.1 hb
  obtain ⟨hrange, hcode⟩ := code_of_mem_toDigits hc
  simp only [Bytes.isDigit, Bool.and_eq_true, decide_eq_true_eq, UInt8.le_iff_toNat_le, hcode]
  exact hrange

lemma ofNat_ne_nil (n : Nat) : Bytes.ofNat n ≠ [] := by
  simp [Bytes.ofNat, Nat.toDigits_ne_nil]

lemma underscore_notMem_ofNat (n : Nat) : (95 : UInt8) ∉ Bytes.ofNat n :=
  fun hscore => absurd (isDigit_of_mem_ofNat hscore) (by decide)

lemma map_ofNat (n : Nat) :
    (Bytes.ofNat n).map (fun b => Char.ofNat b.toNat) = Nat.toDigits 10 n := by
  rw [Bytes.ofNat, List.map_map]
  refine (List.map_congr_left fun c hc => ?_).trans (List.map_id _)
  simp only [Function.comp_apply, (code_of_mem_toDigits hc).2, Char.ofNat_toNat, id_eq]

lemma ofNat_injective : Function.Injective Bytes.ofNat := by
  intro m n h
  have hdigits : Nat.toDigits 10 m = Nat.toDigits 10 n := by rw [← map_ofNat, ← map_ofNat, h]
  rw [← Nat.ofDigitChars_ten_toDigits (n := m), hdigits, Nat.ofDigitChars_ten_toDigits]

/-- The first underscore of a text tells what is in front of it from what is behind it. -/
lemma append_underscore_inj {x y r s : Bytes} (hx : (95 : UInt8) ∉ x) (hy : (95 : UInt8) ∉ y)
    (h : x ++ 95 :: r = y ++ 95 :: s) : x = y ∧ r = s := by
  obtain ⟨z, rfl, hz⟩ | ⟨z, rfl, hz⟩ := List.append_eq_append_iff.1 h
  · cases z with
    | nil => simpa using hz
    | cons b z =>
      cases hz
      simp at hy
  · cases z with
    | nil => simpa using hz.symm
    | cons b z =>
      cases hz
      simp at hx

@[simp] lemma numbered_inj {stem stem' : Bytes} {m n : Nat} :
    numbered stem m = numbered stem' n ↔ stem = stem' ∧ m = n := by
  constructor
  · intro h
    have hscore : stem ++ 95 :: Bytes.ofNat m = stem' ++ 95 :: Bytes.ofNat n := by
      simpa [numbered, show Bytes.ofString "_" = [95] by decide] using h
    -- Read from the end, the first underscore is the one in front of the number.
    have hreverse := congrArg List.reverse hscore
    simp only [List.reverse_append, List.reverse_cons, List.append_assoc,
      List.singleton_append] at hreverse
    obtain ⟨hdigits, hstem⟩ := append_underscore_inj (by simpa using underscore_notMem_ofNat m)
      (by simpa using underscore_notMem_ofNat n) hreverse
    exact ⟨List.reverse_injective hstem, ofNat_injective (List.reverse_injective hdigits)⟩
  · rintro ⟨rfl, rfl⟩
    rfl

end UiCodegen.Transpile
