import UiCodegen.Proofs.JsonGrammar
import UiCodegen.Proofs.Naming
import UiCodegen.Text.Decimal

/-!
# The text of a double

A double is written with the fewest digits that read back as it.  The search for them tries one
digit, two digits and so on up to seventeen, and needs no more: the doubles that lie next to a
double are further apart than decimals of seventeen digits (`exists_hit`).  So what is found has
digits, the first of which is not zero, and the text of a double is a number by the grammar of
documents (`isNumeral_general`).
-/

namespace UiCodegen.Decimal

variable {den n num : ℕ} {e : ℤ} {s : Bytes} {x : Double}

/-! ## Powers with a sign -/

lemma zpow_of_neg (he : e < 0) (b : ℚ) : b ^ e = (b ^ e.natAbs)⁻¹ := by
  rw [← zpow_natCast, ← zpow_neg]
  congr 1
  omega

lemma zpow_of_nonneg (he : 0 ≤ e) (b : ℚ) : b ^ e = b ^ e.natAbs := by
  rw [← zpow_natCast]
  congr 1
  omega

/-! ## The range of what is read -/

/-- The mantissa and the exponent of a double are in their range. -/
structure Double.Fits (x : Double) : Prop where
  mantissa : x.mantissa < 2 ^ 53
  exponent : -1074 ≤ x.exponent

lemma scaled_fst_lt {bound : ℕ} (hden : 0 < den) (h : (num : ℚ) < den * 2 ^ e * bound) :
    (scaled num den e).1 < bound := by
  by_cases he : e < 0
  · have hlt : num * 2 ^ e.natAbs < bound * den := by
      rw [zpow_of_neg he] at h
      have hpos : (0 : ℚ) < 2 ^ e.natAbs := by positivity
      have hmul : (num : ℚ) * 2 ^ e.natAbs < bound * den := by
        calc (num : ℚ) * 2 ^ e.natAbs < den * (2 ^ e.natAbs)⁻¹ * bound * 2 ^ e.natAbs := by gcongr
          _ = bound * den := by field_simp
      exact_mod_cast hmul
    simpa [scaled, he] using (Nat.div_lt_iff_lt_mul hden).2 hlt
  · have hlt : num < bound * (den * 2 ^ e.natAbs) := by
      rw [zpow_of_nonneg (by omega)] at h
      have hmul : (num : ℚ) < bound * (den * 2 ^ e.natAbs) := by linarith
      exact_mod_cast hmul
    have hpos : 0 < den * 2 ^ e.natAbs := by positivity
    simpa [scaled, he] using (Nat.div_lt_iff_lt_mul hpos).2 hlt

lemma cast_lt_of_log2 (hden : 0 < den) (he : (Nat.log2 num : ℤ) - Nat.log2 den - 53 ≤ e) :
    (num : ℚ) < den * 2 ^ (e + 1) * (2 ^ 53 : ℕ) := by
  have hnum : (num : ℚ) < 2 ^ ((Nat.log2 num : ℤ) + 1) := by
    rw [show ((Nat.log2 num : ℤ) + 1) = ((Nat.log2 num + 1 : ℕ) : ℤ) by push_cast; ring,
      zpow_natCast]
    exact_mod_cast Nat.lt_log2_self
  have hlow : (2 : ℚ) ^ (Nat.log2 den : ℤ) ≤ den := by
    rw [zpow_natCast]
    exact_mod_cast Nat.log2_self_le (by omega)
  calc (num : ℚ) < 2 ^ ((Nat.log2 num : ℤ) + 1) := hnum
    _ ≤ 2 ^ ((Nat.log2 den : ℤ) + (e + 1) + 53) := zpow_le_zpow_right₀ (by norm_num) (by omega)
    _ = 2 ^ (Nat.log2 den : ℤ) * 2 ^ (e + 1) * (2 ^ 53 : ℕ) := by
      rw [zpow_add₀ (by norm_num), zpow_add₀ (by norm_num)]
      norm_num
    _ ≤ den * 2 ^ (e + 1) * (2 ^ 53 : ℕ) := by gcongr

lemma exponentOf_spec (num : ℕ) (hden : 0 < den) :
    -1074 ≤ exponentOf num den ∧ (scaled num den (exponentOf num den)).1 < 2 ^ 53 := by
  unfold exponentOf
  dsimp only
  split_ifs with hlarge
  · refine ⟨by omega, scaled_fst_lt hden (cast_lt_of_log2 hden (le_max_left _ _))⟩
  · exact ⟨le_max_right _ _, Nat.not_le.1 hlarge⟩

lemma roundEven_le (q r den : ℕ) : roundEven q r den ≤ q + 1 := by
  unfold roundEven
  split_ifs <;> omega

lemma fits_of_nearest? {negative : Bool} (hden : 0 < den) (h : nearest? negative num den = some x) :
    x.Fits := by
  unfold nearest? at h
  split at h
  · cases h
    exact ⟨by norm_num, le_refl _⟩
  · obtain ⟨hexponent, hquotient⟩ := exponentOf_spec num hden
    obtain ⟨⟨q, r, d⟩, hscaled⟩ : ∃ parts, scaled num den (exponentOf num den) = parts := ⟨_, rfl⟩
    simp only [hscaled] at h hquotient
    have hle : roundEven q r d ≤ 2 ^ 53 := (roundEven_le q r d).trans hquotient
    -- A mantissa that was rounded up to a power of two is halved.
    split at h
    · split at h
      · cases h
      · cases h
        exact ⟨by simp, by dsimp only; omega⟩
    · rename_i htop
      have hne : roundEven q r d ≠ 2 ^ 53 := by simpa using htop
      split at h
      · cases h
      · cases h
        exact ⟨lt_of_le_of_ne hle hne, hexponent⟩

lemma fits_of_parse? (h : parse? s = some x) : x.Fits := by
  obtain ⟨⟨negative, digits, power⟩, -, h⟩ := Option.bind_eq_some_iff.1 h
  unfold ofDecimal? at h
  dsimp only at h
  split_ifs at h
  · cases h
    exact ⟨by norm_num, le_refl _⟩
  · exact fits_of_nearest? (Nat.pow_pos (by norm_num)) h
  · exact fits_of_nearest? one_pos h

/-! ## The search for digits -/

/-- Whether a number lies between two bounds; the bounds themselves count if they are inclusive. -/
def between (low high : ℕ) (inclusive : Bool) (x : ℕ) : Bool :=
  if inclusive then low ≤ x && x ≤ high else low < x && x < high

/-- What bounds are multiplied by so that they can be compared with multiples of `10 ^ power`. -/
def unitScale (power : ℤ) : ℕ := if power < 0 then Nat.pow 10 power.natAbs else 1

/-- One unit of `10 ^ power` over the denominator of the bounds, multiplied in the same way. -/
def unitSize (den : ℕ) (power : ℤ) : ℕ := if power < 0 then den else den * Nat.pow 10 power.natAbs

lemma unitScale_pos (power : ℤ) : 0 < unitScale power := by
  unfold unitScale
  split_ifs
  · exact Nat.pow_pos (by norm_num)
  · exact one_pos

lemma unitSize_pos (hden : 0 < den) (power : ℤ) : 0 < unitSize den power := by
  unfold unitSize
  split_ifs
  · exact hden
  · exact Nat.mul_pos hden (Nat.pow_pos (by norm_num))

lemma cast_unitSize (den : ℕ) (power : ℤ) :
    (unitSize den power : ℚ) = den * 10 ^ power * unitScale power := by
  unfold unitSize unitScale
  split_ifs with hneg
  · rw [zpow_of_neg hneg]
    have hpos : (0 : ℚ) < 10 ^ power.natAbs := by positivity
    simp only [Nat.pow_eq, Nat.cast_pow, Nat.cast_ofNat]
    field_simp
  · rw [zpow_of_nonneg (by omega)]
    simp

section

variable (low mid high den : ℕ) (inclusive : Bool) (point : ℤ)

def Hits (power : ℤ) (q : ℕ) : Prop :=
  (q = mid * unitScale power / unitSize den power ∨ q = mid * unitScale power / unitSize
    den power + 1) ∧
    between (low * unitScale power) (high * unitScale power) inclusive (q * unitSize den power)

/-- One precision: a decimal that reads back is taken, and if there is none, the next precision is
tried. -/
lemma shortestFrom_succ (n steps : ℕ) : (∃ q, Hits low mid high den inclusive (point - n) q ∧
      shortestFrom low mid high den inclusive point n (steps + 1) = Digits.ofScaled q (point - n)) ∨
    (∀ q, ¬ Hits low mid high den inclusive (point - n) q) ∧
      shortestFrom low mid high den inclusive point n (steps + 1) =
        shortestFrom low mid high den inclusive point (n + 1) steps := by
  rw [shortestFrom]
  dsimp only
  rw [← unitScale, ← unitSize]
  simp only [← between.eq_1]
  split_ifs with hbelow habove
  · rw [Bool.and_eq_true] at hbelow
    exact .inl ⟨_, ⟨.inl rfl, hbelow.1⟩, rfl⟩
  · exact .inl ⟨_, ⟨.inr rfl, habove⟩, rfl⟩
  · refine .inr ⟨?_, rfl⟩
    rintro q ⟨rfl | rfl, hq⟩
    · exact hbelow (by simp [hq, habove])
    · exact habove hq

variable {low mid high den inclusive point}

/-- A multiple of a unit lies between bounds that are further apart than one unit. -/
lemma exists_hit {power : ℤ} (hden : 0 < den) (hlow : low ≤ mid) (hhigh : mid < high)
    (hwide : (den : ℚ) * 10 ^ power < high - low) :
    ∃ q, Hits low mid high den inclusive power q := by
  have hscale := unitScale_pos power
  have hsize := unitSize_pos hden power
  set q := mid * unitScale power / unitSize den power with hq
  have hbelow : q * unitSize den power ≤ mid * unitScale power := Nat.div_mul_le_self _ _
  have habove : mid * unitScale power < (q + 1) * unitSize den power :=
    (Nat.div_lt_iff_lt_mul hsize).1 (Nat.lt_succ_self q)
  have hfar : unitSize den power + low * unitScale power < high * unitScale power := by
    have hfarQ : (unitSize den power : ℚ) + low * unitScale power < high * unitScale power := by
      rw [cast_unitSize]
      have hscaleQ : (0 : ℚ) < unitScale power := by exact_mod_cast hscale
      nlinarith
    exact_mod_cast hfarQ
  have hlow' : low * unitScale power ≤ mid * unitScale power := Nat.mul_le_mul_right _ hlow
  have hhigh' : mid * unitScale power < high * unitScale power :=
    Nat.mul_lt_mul_of_pos_right hhigh hscale
  have hnext : (q + 1) * unitSize den power = q * unitSize den power + unitSize den power := by ring
  -- If the multiple below is too low, the one above is not too high.
  by_cases hin : between (low * unitScale power) (high * unitScale power) inclusive
    (q * unitSize den power)
  · exact ⟨q, .inl hq, hin⟩
  · refine ⟨q + 1, .inr (by rw [hq]), ?_⟩
    unfold between at hin ⊢
    cases inclusive
    · simp only [Bool.false_eq_true, if_false, Bool.and_eq_true, decide_eq_true_eq] at hin ⊢
      omega
    · simp only [if_true, Bool.and_eq_true, decide_eq_true_eq] at hin ⊢
      omega

/-- The search ends at a decimal that reads back, if there is one among those that are tried last.
-/
lemma shortestFrom_eq_ofScaled (hlow : 0 < low) {steps : ℕ} (q : ℕ)
    (hq : Hits low mid high den inclusive (point - (n + steps : ℕ)) q) :
    ∃ q power, 0 < q ∧ shortestFrom low mid high den inclusive point n
    (steps + 1) = Digits.ofScaled q power := by
  have hpos : ∀ {power : ℤ} {q : ℕ}, Hits low mid high den inclusive power q → 0 < q := by
    rintro power q ⟨-, hbetween⟩
    have hbound : 0 < low * unitScale power := Nat.mul_pos hlow (unitScale_pos power)
    unfold between at hbetween
    refine Nat.pos_of_ne_zero fun hzero => ?_
    rw [hzero, Nat.zero_mul] at hbetween
    split_ifs at hbetween
    · simp only [Bool.and_eq_true, decide_eq_true_eq] at hbetween
      omega
    · simp only [Bool.and_eq_true, decide_eq_true_eq] at hbetween
      omega
  induction steps generalizing n with
  | zero =>
    obtain ⟨q, hhit, heq⟩ | ⟨hnone, -⟩ := shortestFrom_succ low mid high den inclusive point n 0
    · exact ⟨q, _, hpos hhit, heq⟩
    · exact absurd hq (hnone q)
  | succ steps ih =>
    obtain ⟨q', hhit, heq⟩ | ⟨-, heq⟩ :=
      shortestFrom_succ low mid high den inclusive point n (steps + 1)
    · exact ⟨q', _, hpos hhit, heq⟩
    · rw [heq]
      refine ih ?_
      rwa [show n + 1 + steps = n + (steps + 1) by omega]

end

/-- The point is put no further than the number reaches. -/
lemma pointFrom_spec (steps : ℕ) {p : ℤ} (hp : (den : ℚ) * 10 ^ (p - 1) ≤ num) :
    (den : ℚ) * 10 ^ (pointFrom num den steps p - 1) ≤ num := by
  induction steps generalizing p with
  | zero => exact hp
  | succ steps ih =>
    have hbelow :
        (if p < 0 then num * Nat.pow 10 p.natAbs < den else num < den * Nat.pow 10 p.natAbs) ↔
        (num : ℚ) < den * 10 ^ p := by
      split_ifs with hneg
      · have hpos : (0 : ℚ) < 10 ^ p.natAbs := by positivity
        rw [zpow_of_neg hneg, ← div_eq_mul_inv, lt_div_iff₀ hpos]
        exact_mod_cast Iff.rfl
      · rw [zpow_of_nonneg (by omega)]
        exact_mod_cast Iff.rfl
    rw [pointFrom]
    simp only [hbelow]
    by_cases hlt : (num : ℚ) < den * 10 ^ p
    · rwa [if_pos hlt]
    · rw [if_neg hlt]
      exact ih (by rw [add_sub_cancel_right]; exact not_lt.1 hlt)

/-- The least double is not so small that the point would have to be put in front of where the
search for it begins. -/
lemma least_point (he : -1076 ≤ e) {m : ℕ} (hm : 0 < m) :
    (((if e < 0 then Nat.pow 2 e.natAbs else 1 : ℕ) : ℚ)) * 10 ^ ((-330 : ℤ) - 1) ≤
      ((4 * m * if e < 0 then 1 else Nat.pow 2 e.natAbs : ℕ) : ℚ) := by
  have hleast : (2 : ℚ) ^ 1076 * 10 ^ ((-330 : ℤ) - 1) ≤ 4 := by
    have hpow : 2 ^ 1076 ≤ 4 * 10 ^ ((-330 : ℤ) - 1).natAbs := by decide +kernel
    rw [zpow_of_neg (by norm_num), ← div_eq_mul_inv, div_le_iff₀ (by positivity)]
    simpa only [Nat.cast_mul, Nat.cast_pow, Nat.cast_ofNat] using (Nat.cast_le (α := ℚ)).2 hpow
  have hnum : (1 : ℚ) ≤ m := by exact_mod_cast hm
  split_ifs with hneg
  · have hpow : (2 : ℚ) ^ e.natAbs ≤ 2 ^ 1076 := pow_le_pow_right₀ (by norm_num) (by omega)
    calc ((Nat.pow 2 e.natAbs : ℕ) : ℚ) * 10 ^ ((-330 : ℤ) - 1) ≤ 2 ^ 1076 * 10 ^
      ((-330 : ℤ) - 1) := by
          simp only [Nat.pow_eq, Nat.cast_pow, Nat.cast_ofNat]
          gcongr
      _ ≤ 4 := hleast
      _ ≤ ((4 * m * 1 : ℕ) : ℚ) := by push_cast; linarith
  · have hpow : (1 : ℚ) ≤ 2 ^ e.natAbs := one_le_pow₀ (by norm_num)
    calc ((1 : ℕ) : ℚ) * 10 ^ ((-330 : ℤ) - 1) ≤ 2 ^ 1076 * 10 ^ ((-330 : ℤ) - 1) := by
          gcongr
          exact_mod_cast Nat.one_le_two_pow
      _ ≤ 4 := hleast
      _ ≤ ((4 * m * Nat.pow 2 e.natAbs : ℕ) : ℚ) := by
        simp only [Nat.pow_eq]
        push_cast
        nlinarith

/-- If the number reaches the point, the seventeenth digit behind it counts less than what lies
between the bounds. -/
lemma unit_lt_gap {low mid high scale : ℕ} {point : ℤ} (hscale : 0 < scale)
    (hreach : (den : ℚ) * 10 ^ (point - 1) ≤ (mid * scale : ℕ))
    (hwide : mid + 10 ^ 16 * low < 10 ^ 16 * high) :
    (den : ℚ) * 10 ^ (point - (1 + 16 : ℕ)) < (high * scale : ℕ) - (low * scale : ℕ) := by
  have hsplit : (10 : ℚ) ^ (point - 1) = 10 ^ (point - (1 + 16 : ℕ)) * 10 ^ 16 := by
    rw [← zpow_natCast, ← zpow_add₀ (by norm_num)]
    congr 1
    push_cast
    ring
  have hwideQ : (mid : ℚ) + 10 ^ 16 * low < 10 ^ 16 * high := by exact_mod_cast hwide
  have hscaleQ : (0 : ℚ) < scale := by exact_mod_cast hscale
  rw [hsplit] at hreach
  push_cast at hreach ⊢
  nlinarith

/-- Seventeen digits are enough: the numbers that read back as a double lie further apart than that.
-/
lemma shortest_eq_ofScaled (hx : x.Fits) (hzero : x.mantissa ≠ 0) :
    ∃ q power, 0 < q ∧ shortest x = Digits.ofScaled q power := by
  obtain ⟨hmantissa, hexponent⟩ := hx
  have hpos : 0 < x.mantissa := Nat.pos_of_ne_zero hzero
  set e : ℤ := x.exponent - 2 with he
  set scale := if e < 0 then 1 else Nat.pow 2 e.natAbs with hscale
  set den := if e < 0 then Nat.pow 2 e.natAbs else 1 with hden
  set low := if x.mantissa == Nat.pow 2 52 && decide (-1074 < x.exponent) then 4 * x.mantissa - 1
    else 4 * x.mantissa - 2 with hlow
  set point := pointFrom (4 * x.mantissa * scale) den 700 (-330) with hpoint
  have hshortest : shortest x = shortestFrom (low * scale) (4 * x.mantissa * scale)
      ((4 * x.mantissa + 2) * scale) den (x.mantissa % 2 == 0) point 1 17 := by
    rw [shortest, if_neg (by simpa using hzero)]
    rfl
  have hscalePos : 0 < scale := by
    rw [hscale]
    split_ifs
    · exact one_pos
    · exact Nat.pow_pos (by norm_num)
  have hdenPos : 0 < den := by
    rw [hden]
    split_ifs
    · exact Nat.pow_pos (by norm_num)
    · exact one_pos
  have hreach : (den : ℚ) * 10 ^ (point - 1) ≤ (4 * x.mantissa * scale : ℕ) :=
    pointFrom_spec 700 (least_point (by omega) hpos)
  have hlowCases : low + 2 = 4 * x.mantissa ∨ low + 1 = 4 * x.mantissa ∧ x.mantissa = 2 ^ 52 := by
    rw [hlow]
    split_ifs with hpower
    · right
      rw [Bool.and_eq_true, beq_iff_eq] at hpower
      exact ⟨by omega, hpower.1⟩
    · left
      omega
  -- The bounds are four quarters of the last place apart, or three if the mantissa has one bit
  -- less.
  have hwide : 4 * x.mantissa + 10 ^ 16 * low < 10 ^ 16 * (4 * x.mantissa + 2) := by omega
  obtain ⟨q, hq⟩ :=
    exists_hit hdenPos (Nat.mul_le_mul_right scale (show low ≤ 4 * x.mantissa by omega))
    (Nat.mul_lt_mul_of_pos_right (show 4 * x.mantissa < 4 * x.mantissa + 2 by omega) hscalePos)
    (unit_lt_gap hscalePos hreach hwide)
  rw [hshortest]
  exact shortestFrom_eq_ofScaled (Nat.mul_pos (by omega) hscalePos) q hq

/-! ## The text -/

open Document.Json (IsDigits IsInteger IsFraction IsExponent IsTail IsNumeral Optional)

lemma head?_ofNat (hn : 0 < n) : (Bytes.ofNat n).head? ≠ some 48 := by
  induction n using Nat.strong_induction_on with
  | _ n ih =>
    by_cases hsmall : n < 10
    · rw [Bytes.ofNat, Nat.toDigits_of_lt_base hsmall]
      interval_cases n <;> decide
    · rw [Bytes.ofNat, Nat.toDigits_of_base_le (by omega) (by omega), List.map_append,
        ← Bytes.ofNat, List.head?_append_of_ne_nil _ (Transpile.ofNat_ne_nil _)]
      exact ih (n / 10) (by omega) (by omega)

lemma isDigits_ofNat (n : ℕ) : IsDigits (Bytes.ofNat n) :=
  ⟨Transpile.ofNat_ne_nil n, fun _ hc => Transpile.isDigit_of_mem_ofNat hc⟩

lemma isInteger_ofNat (n : ℕ) : IsInteger (Bytes.ofNat n) := by
  obtain rfl | hn := Nat.eq_zero_or_pos n
  · exact .inl rfl
  · exact .inr ⟨isDigits_ofNat n, head?_ofNat hn⟩

def Leads (s : Bytes) : Prop := IsDigits s ∧ s.head? ≠ some 48

lemma leads_ofScaled {q : ℕ} (hq : 0 < q) (power : ℤ) : Leads (Digits.ofScaled q power).digits := by
  have hfront : (Digits.ofScaled q power).digits <+: Bytes.ofNat q :=
    List.rdropWhile_prefix (· == 48) _
  have hne : (Digits.ofScaled q power).digits ≠ [] := by
    intro hnil
    obtain ⟨b, rest, hs⟩ := List.exists_cons_of_ne_nil (Transpile.ofNat_ne_nil q)
    have hzero : b == 48 := List.rdropWhile_eq_nil_iff.1 hnil b (by simp [hs])
    exact head?_ofNat hq (by rw [hs, eq_of_beq hzero]; rfl)
  refine ⟨⟨hne, fun c hc => Transpile.isDigit_of_mem_ofNat (hfront.subset hc)⟩, ?_⟩
  obtain ⟨more, hmore⟩ := hfront
  have hhead := head?_ofNat hq
  rwa [← hmore, List.head?_append_of_ne_nil _ hne] at hhead

/-- A number without its sign. -/
def IsUnsigned (s : Bytes) : Prop := ∃ int tail, s = int ++ tail ∧ IsInteger int ∧ IsTail tail

lemma isUnsigned_of_parts {int frac exp : Bytes} (hint : IsInteger int)
    (hfrac : Optional IsFraction frac)
    (hexp : Optional IsExponent exp) : IsUnsigned (int ++ frac ++ exp) :=
  ⟨int, frac ++ exp, List.append_assoc _ _ _, hint, frac, exp, rfl, hfrac, hexp⟩

lemma isUnsigned_ofNat (n : ℕ) : IsUnsigned (Bytes.ofNat n) := by
  have h := isUnsigned_of_parts (isInteger_ofNat n) (.inl rfl) (.inl rfl)
  rwa [List.append_nil, List.append_nil] at h

lemma isFraction_onlyIf (condition : Bool) (h : condition = true → IsDigits s) :
    Optional IsFraction (Bytes.onlyIf condition (46 :: s)) := by
  cases condition with
  | false => exact .inl rfl
  | true => exact .inr ⟨s, rfl, h rfl⟩

lemma isDigits_drop (hs : IsDigits s) (hn : n < s.length) : IsDigits (s.drop n) :=
  ⟨by simpa using hn, fun c hc => hs.2 c (List.mem_of_mem_drop hc)⟩

lemma isUnsigned_positional {d : Digits} (h : Leads d.digits) : IsUnsigned (positional d) := by
  obtain ⟨⟨hne, hdigit⟩, hhead⟩ := h
  have hzeros : ∀ n, ∀ c ∈ List.replicate n (48 : UInt8), Bytes.isDigit c := by
    intro n c hc
    rw [List.eq_of_mem_replicate hc]
    decide
  unfold positional
  split
  · -- All digits are behind the point.
    have hfraction : IsDigits (List.replicate d.point.natAbs 48 ++ d.digits) :=
      ⟨List.append_ne_nil_of_right_ne_nil _ hne, List.forall_mem_append.2 ⟨hzeros _, hdigit⟩⟩
    have hparts :=
      isUnsigned_of_parts (.inl rfl) (isFraction_onlyIf (!d.digits.isEmpty) fun _ => hfraction)
      (.inl rfl)
    rwa [List.append_nil] at hparts
  · rename_i hpoint
    dsimp only
    have hwhole : IsInteger (d.digits.take d.point.toNat ++
        List.replicate (d.point.toNat - (d.digits.take d.point.toNat).length) 48) := by
      have htake : d.digits.take d.point.toNat ≠ [] := by
        rw [Ne, List.take_eq_nil_iff, not_or]
        exact ⟨by omega, hne⟩
      refine .inr
        ⟨⟨List.append_ne_nil_of_left_ne_nil htake _, List.forall_mem_append.2
          ⟨fun c hc => ?_, hzeros _⟩⟩, ?_⟩
      · exact hdigit c (List.mem_of_mem_take hc)
      · rw [List.head?_append_of_ne_nil _ htake, List.head?_take, if_neg (by omega)]
        exact hhead
    have hparts := isUnsigned_of_parts hwhole
      (isFraction_onlyIf (decide (d.point.toNat < d.digits.length)) fun hlt =>
        isDigits_drop ⟨hne, hdigit⟩ (of_decide_eq_true hlt)) (.inl rfl)
    rwa [List.append_nil] at hparts

lemma isUnsigned_scientific {d : Digits} (h : Leads d.digits) : IsUnsigned (scientific d) := by
  obtain ⟨⟨hne, hdigit⟩, hhead⟩ := h
  obtain ⟨first, rest, hd⟩ := List.exists_cons_of_ne_nil hne
  have hint : IsInteger (d.digits.take 1) := by
    refine .inr ⟨⟨by simp [hd], fun c hc => hdigit c (List.mem_of_mem_take hc)⟩, ?_⟩
    rwa [List.head?_take, if_neg one_ne_zero]
  have hpower : IsDigits
      (Bytes.onlyIf (decide ((d.point - 1).natAbs < 10)) "0" ++ Bytes.ofNat
        (d.point - 1).natAbs) := by
    refine ⟨List.append_ne_nil_of_right_ne_nil _ (Transpile.ofNat_ne_nil _),
      List.forall_mem_append.2 ⟨fun c hc => ?_, (isDigits_ofNat _).2⟩⟩
    unfold Bytes.onlyIf at hc
    split at hc
    · rw [List.mem_singleton.1 hc]
      decide
    · cases hc
  have hexponent :
      IsExponent ((if d.point - 1 < 0 then Bytes.ofString "e-" else Bytes.ofString "e+") ++
      (Bytes.onlyIf (decide ((d.point - 1).natAbs < 10)) "0" ++ Bytes.ofNat
        (d.point - 1).natAbs)) := by
    split
    · exact ⟨101, [45], _, rfl, by decide, by decide, hpower⟩
    · exact ⟨101, [43], _, rfl, by decide, by decide, hpower⟩
  have hparts := isUnsigned_of_parts hint
    (isFraction_onlyIf (decide (1 < d.digits.length)) fun hlt =>
      isDigits_drop ⟨hne, hdigit⟩ (of_decide_eq_true hlt)) (.inr hexponent)
  simpa only [scientific, List.append_assoc] using hparts

lemma IsUnsigned.isNumeral (h : IsUnsigned s) (negative : Bool) :
    IsNumeral (Bytes.onlyIf negative "-" ++ s) := by
  obtain ⟨int, tail, rfl, hint, htail⟩ := h
  refine ⟨_, int, tail, rfl, ?_, hint, htail⟩
  cases negative <;> decide

/-- **The text of a double is a number.** -/
lemma isNumeral_general (hx : x.Fits) : IsNumeral (general x) := by
  unfold general
  dsimp only
  refine IsUnsigned.isNumeral ?_ x.negative
  by_cases hzero : x.mantissa = 0
  · have hshortest : shortest x = ⟨[], 0⟩ := by simp [shortest, hzero]
    rw [hshortest]
    exact isUnsigned_ofNat 0
  · obtain ⟨q, power, hq, hshortest⟩ := shortest_eq_ofScaled hx hzero
    rw [hshortest]
    split
    · exact isUnsigned_scientific (leads_ofScaled hq power)
    · exact isUnsigned_positional (leads_ofScaled hq power)

lemma isNumeral_ofInt (n : ℤ) : IsNumeral (Bytes.ofInt n) := by
  cases n with
  | ofNat n => exact (isUnsigned_ofNat n).isNumeral false
  | negSucc n => exact (isUnsigned_ofNat (n + 1)).isNumeral true

end UiCodegen.Decimal
