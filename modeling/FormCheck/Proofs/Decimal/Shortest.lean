import FormCheck.Proofs.Decimal.Nearest

/-!
# The fewest digits

The search for the shortest text tries one more digit each time, down from the first digit of the
magnitude. Seventeen digits are always enough, since the numbers with 17 digits are closer to each
other than magnitudes are.

## Main definitions

* `Decimal.HasDigits`: the numbers with a limited number of significant digits.
* `Binary64.IsShortest`: the numbers with the fewest digits that round to a magnitude.

## Main results

* `Binary64.decimalExponent_spec`: where the first digit of a magnitude stands.
* `Binary64.exists_candidate?`: a number of digits is tried with success if it is enough.
* `Binary64.isShortest_search`: the search finds the fewest digits.
-/

namespace FormCheck

namespace Decimal

/-! ## Significant digits -/

/-- Whether a number has at most `n` significant digits. -/
def HasDigits (n : ℕ) (x : ℚ) : Prop := ∃ (d : ℕ) (k : ℤ), d < 10 ^ n ∧ x = d * 10 ^ k

theorem HasDigits.mono {m n : ℕ} {x : ℚ} (h : HasDigits m x) (hmn : m ≤ n) : HasDigits n x := by
  obtain ⟨d, k, hd, hx⟩ := h
  exact ⟨d, k, hd.trans_le (Nat.pow_le_pow_right (by norm_num) hmn), hx⟩

/-- A power of ten itself has one digit. -/
theorem hasDigits_of_le {n d : ℕ} (hn : 1 ≤ n) (hd : d ≤ 10 ^ n) (k : ℤ) :
    HasDigits n (d * 10 ^ k) := by
  rcases Nat.lt_or_eq_of_le hd with hlt | rfl
  · exact ⟨d, k, hlt, rfl⟩
  · refine ⟨1, n + k, Nat.one_lt_pow (by omega) (by norm_num), ?_⟩
    rw [zpow_add₀ (by norm_num), zpow_natCast]
    push_cast
    ring

/-! ## Powers of two between powers of ten -/

section Powers

variable {a c : ℤ}

/-- Twenty-eight digits hold 93 bits, and 196 bits hold 59 digits. -/
theorem two_zpow_le_ten_zpow (hpos : 0 ≤ a → 28 * a ≤ 93 * c) (hneg : a ≤ 0 → 59 * a ≤ 196 * c) :
    (2 : ℚ) ^ a ≤ 10 ^ c := by
  rcases le_total 0 a with ha | ha
  · refine (pow_le_pow_iff_left₀ (by positivity) (by positivity) (by norm_num : 93 ≠ 0)).mp ?_
    calc ((2 : ℚ) ^ a) ^ 93 = (2 ^ 93) ^ a := by rw [← zpow_natCast, ← zpow_natCast, zpow_comm]
      _ ≤ (10 ^ 28) ^ a := zpow_le_zpow_left₀ ha (by norm_num) (by norm_num)
      _ = 10 ^ (28 * a) := by rw [zpow_mul]; norm_cast
      _ ≤ 10 ^ (93 * c) := zpow_le_zpow_right₀ (by norm_num) (hpos ha)
      _ = (10 ^ c) ^ 93 := by rw [mul_comm, zpow_mul]; norm_cast
  · refine (pow_le_pow_iff_left₀ (by positivity) (by positivity) (by norm_num : 196 ≠ 0)).mp ?_
    have hbits : ((10 : ℚ) ^ 59) ^ (-a) ≤ (2 ^ 196) ^ (-a) :=
      zpow_le_zpow_left₀ (by omega) (by norm_num) (by norm_num)
    rw [zpow_neg, zpow_neg] at hbits
    calc ((2 : ℚ) ^ a) ^ 196 = (2 ^ 196) ^ a := by rw [← zpow_natCast, ← zpow_natCast, zpow_comm]
      _ ≤ (10 ^ 59) ^ a := (inv_le_inv₀ (by positivity) (by positivity)).mp hbits
      _ = 10 ^ (59 * a) := by rw [zpow_mul]; norm_cast
      _ ≤ 10 ^ (196 * c) := zpow_le_zpow_right₀ (by norm_num) (hneg ha)
      _ = (10 ^ c) ^ 196 := by rw [mul_comm, zpow_mul]; norm_cast

theorem ten_zpow_le_two_zpow (hpos : 0 ≤ a → 196 * c ≤ 59 * a) (hneg : a ≤ 0 → 93 * c ≤ 28 * a) :
    (10 : ℚ) ^ c ≤ 2 ^ a := by
  have h : (2 : ℚ) ^ (-a) ≤ 10 ^ (-c) := two_zpow_le_ten_zpow (by omega) (by omega)
  rw [zpow_neg, zpow_neg] at h
  exact (inv_le_inv₀ (by positivity) (by positivity)).mp h

end Powers

end Decimal

namespace Binary64

open Decimal

variable {b : Binary64}

/-! ## The first digit -/

/-- A magnitude lies between two powers of two. -/
theorem two_zpow_le_value (hb : b.mantissa ≠ 0) :
    (2 : ℚ) ^ ((Nat.log2 b.mantissa : ℤ) + b.exponent) ≤ b.value ∧
      b.value < 2 ^ ((Nat.log2 b.mantissa : ℤ) + b.exponent + 1) := by
  have hle : (2 : ℚ) ^ Nat.log2 b.mantissa ≤ b.mantissa := by
    exact_mod_cast Nat.log2_self_le hb
  have hlt : (b.mantissa : ℚ) < 2 ^ (Nat.log2 b.mantissa + 1) := by
    exact_mod_cast Nat.lt_log2_self
  have hpos : (0 : ℚ) < 2 ^ b.exponent := by positivity
  rw [value, add_right_comm, zpow_add₀ (by norm_num), zpow_add₀ (by norm_num)]
  constructor
  · exact mul_le_mul_of_nonneg_right (by exact_mod_cast hle) hpos.le
  · exact mul_lt_mul_of_pos_right (by exact_mod_cast hlt) hpos

theorem decimalExponent_spec (hb : b.mantissa ≠ 0) :
    (10 : ℚ) ^ b.decimalExponent ≤ b.value ∧ b.value < 10 ^ (b.decimalExponent + 1) := by
  obtain ⟨hle, hlt⟩ := two_zpow_le_value hb
  have hmin : -1074 ≤ b.exponent := b.minExponent_le
  have hmax : b.exponent ≤ 971 := b.le_maxExponent
  have hlog : Nat.log2 b.mantissa < 53 := (Nat.log2_lt hb).mpr b.mantissa_lt
  have hcompare : ∀ k : ℤ, compareScaled 1 k b.mantissa b.exponent ≠ .gt ↔
      (10 : ℚ) ^ k ≤ b.value := by
    intro k
    rw [ne_eq, compareScaled_eq_gt_iff, not_lt, Nat.cast_one, one_mul, value]
  unfold decimalExponent
  simp only [hcompare]
  have hbits : -1074 ≤ (Nat.log2 b.mantissa : ℤ) + b.exponent ∧
      (Nat.log2 b.mantissa : ℤ) + b.exponent ≤ 1023 := by omega
  generalize (Nat.log2 b.mantissa : ℤ) + b.exponent = l at *
  split
  · next h => exact ⟨h, hlt.trans_le (two_zpow_le_ten_zpow (by omega) (by omega))⟩
  · next h =>
    split
    · next h' => exact ⟨h', not_le.mp h⟩
    · next h' =>
      rw [sub_add_cancel]
      exact ⟨(ten_zpow_le_two_zpow (by omega) (by omega)).trans hle, not_le.mp h'⟩

/-! ## Candidates -/

/-- Between two numbers that round to a magnitude, all do. -/
theorem IsNearest.between {x y z : ℚ} (hx : b.IsNearest x) (hz : b.IsNearest z) (hxy : x ≤ y)
    (hyz : y ≤ z) (hb : b.mantissa ≠ 0) : b.IsNearest y := by
  rw [isNearest_iff hb] at hx hz ⊢
  split at hx
  · next heven =>
    rw [if_pos heven] at hz ⊢
    exact ⟨hx.1.trans hxy, hyz.trans hz.2⟩
  · next hodd =>
    rw [if_neg hodd] at hz ⊢
    exact ⟨hx.1.trans_le hxy, hyz.trans_lt hz.2⟩

theorem le_floorScaled_iff {d : ℕ} {k : ℤ} : d ≤ b.floorScaled k ↔ (d : ℚ) * 10 ^ k ≤ b.value := by
  have hpos : 0 < twoPow (-b.exponent).toNat * tenPow k.toNat :=
    Nat.mul_pos (twoPow_pos _) (tenPow_pos _)
  rw [floorScaled, Nat.le_div_iff_mul_le hpos, value, ← not_lt, ← not_lt, ← lt_scaled_iff,
    Nat.mul_assoc d, Nat.mul_comm (tenPow _)]

theorem floorScaled_spec (b : Binary64) (k : ℤ) :
    (b.floorScaled k : ℚ) * 10 ^ k ≤ b.value ∧ b.value < (b.floorScaled k + 1 : ℕ) * 10 ^ k := by
  rw [← le_floorScaled_iff, ← not_le, ← le_floorScaled_iff]
  omega

theorem isNearest_of_candidate? {d : ℕ} {k : ℤ} (hb : b.mantissa ≠ 0)
    (h : b.candidate? k = some d) :
    b.IsNearest (d * 10 ^ k) ∧ (d = b.floorScaled k ∨ d = b.floorScaled k + 1) := by
  unfold candidate? at h
  dsimp only at h
  split at h
  · cases h
  · next hd _ =>
    cases h
    exact ⟨(roundsBack_iff hb).mp hd, .inl rfl⟩
  · next _ hd =>
    cases h
    exact ⟨(roundsBack_iff hb).mp hd, .inr rfl⟩
  · next hd hd' =>
    have hboth : d = b.floorScaled k ∨ d = b.floorScaled k + 1 := by
      split at h <;> try split at h
      all_goals simp_all
    refine ⟨(roundsBack_iff hb).mp ?_, hboth⟩
    rcases hboth with rfl | rfl
    · exact hd
    · exact hd'

/-- A multiple that rounds to the magnitude lies on one side of it, and the next multiple on that
side does as well. -/
theorem exists_candidate? {j : ℕ} {k : ℤ} (hb : b.mantissa ≠ 0) (h : b.IsNearest (j * 10 ^ k)) :
    ∃ d, b.candidate? k = some d := by
  obtain ⟨hfloor, hnext⟩ := b.floorScaled_spec k
  have hsome : b.roundsBack (b.floorScaled k) k = true ∨
      b.roundsBack (b.floorScaled k + 1) k = true := by
    rcases le_or_gt ((j : ℚ) * 10 ^ k) b.value with hj | hj
    · have hle : (j : ℚ) ≤ b.floorScaled k := by exact_mod_cast le_floorScaled_iff.mpr hj
      have hmul := mul_le_mul_of_nonneg_right hle (by positivity : (0 : ℚ) ≤ 10 ^ k)
      exact .inl ((roundsBack_iff hb).mpr (h.between b.isNearest_value hmul hfloor hb))
    · have hlt : b.floorScaled k < j := by
        rw [← not_le, le_floorScaled_iff, not_le]
        exact hj
      have hle : ((b.floorScaled k + 1 : ℕ) : ℚ) ≤ j := by exact_mod_cast hlt
      have hmul := mul_le_mul_of_nonneg_right hle (by positivity : (0 : ℚ) ≤ 10 ^ k)
      exact .inr ((roundsBack_iff hb).mpr (b.isNearest_value.between h hnext.le hmul hb))
  unfold candidate?
  dsimp only
  split
  · next hd hd' => simp [hd, hd'] at hsome
  · exact ⟨_, rfl⟩
  · exact ⟨_, rfl⟩
  · split <;> exact ⟨_, rfl⟩

/-- Numbers with 17 digits are closer to each other than magnitudes are. -/
theorem ten_zpow_lt_units (hb : b.mantissa ≠ 0) :
    (10 : ℚ) ^ (b.decimalExponent - 16) < b.unitBelow / 2 + 2 ^ b.exponent / 2 := by
  have hfirst := (decimalExponent_spec hb).1
  have hstep : (10 : ℚ) ^ (b.decimalExponent - 16) * 10 ^ 16 = 10 ^ b.decimalExponent := by
    rw [← zpow_natCast, ← zpow_add₀ (by norm_num)]
    norm_num
  have hpos : (0 : ℚ) < 2 ^ b.exponent := by positivity
  have hlt : b.mantissa < 2 ^ 53 := b.mantissa_lt
  have hlt : (b.mantissa : ℚ) + 1 ≤ 2 ^ 53 := by exact_mod_cast hlt
  rw [← hstep, value] at hfirst
  rw [unitBelow, spacingBelow]
  split
  · next h =>
    rw [h.1, cast_twoPow] at hfirst
    linarith
  · nlinarith

theorem exists_isNearest_seventeen (hb : b.mantissa ≠ 0) :
    ∃ j : ℕ, b.IsNearest (j * 10 ^ (b.decimalExponent - 16)) := by
  have hstep := ten_zpow_lt_units hb
  obtain ⟨hfloor, hnext⟩ := b.floorScaled_spec (b.decimalExponent - 16)
  generalize b.floorScaled (b.decimalExponent - 16) = f at hfloor hnext
  generalize (10 : ℚ) ^ (b.decimalExponent - 16) = step at *
  have hpos : (0 : ℚ) < 2 ^ b.exponent := by positivity
  have hbelow := b.unitBelow_pos
  rcases lt_or_ge (b.value - b.unitBelow / 2) (f * step) with hnear | hfar
  · exact ⟨f, isNearest_of_lt hnear (by linarith)⟩
  · refine ⟨f + 1, isNearest_of_lt (by linarith) ?_⟩
    push_cast at hnext ⊢
    linarith

/-! ## The search -/

/-- Whether a number rounds to a magnitude and has the fewest digits of those that do. -/
structure IsShortest (b : Binary64) (x : ℚ) : Prop where
  isNearest : b.IsNearest x
  hasDigits : ∀ (n : ℕ) (y : ℚ), b.IsNearest y → HasDigits n y → HasDigits n x

theorem pos_of_isNearest {x : ℚ} (hb : b.mantissa ≠ 0) (h : b.IsNearest x) : 0 < x := by
  have hm : (1 : ℚ) ≤ b.mantissa := by exact_mod_cast Nat.one_le_iff_ne_zero.mpr hb
  have hpos : (0 : ℚ) < 2 ^ b.exponent := by positivity
  have hunit : b.unitBelow ≤ 2 ^ b.exponent := by
    rw [unitBelow, spacingBelow]
    split <;> linarith
  have hlow : 0 < b.value - b.unitBelow / 2 := by
    rw [value]
    nlinarith
  rw [isNearest_iff hb, lowerBound_eq hb] at h
  split at h
  · exact hlow.trans_le h.1
  · exact hlow.trans h.1

theorem one_le_of_hasDigits {n : ℕ} {y : ℚ} (hb : b.mantissa ≠ 0) (hy : b.IsNearest y)
    (hn : HasDigits n y) : 1 ≤ n := by
  by_contra hzero
  obtain rfl : n = 0 := by omega
  obtain ⟨d, k, hd, rfl⟩ := hn
  obtain rfl : d = 0 := by omega
  have hpos := pos_of_isNearest hb hy
  simp at hpos

/-- A number of digits is tried with success if a number with so many digits rounds to the
magnitude. -/
theorem exists_candidate?_of_hasDigits {n : ℕ} {y : ℚ} (hb : b.mantissa ≠ 0) (hy : b.IsNearest y)
    (hn : HasDigits n y) : ∃ d, b.candidate? (b.decimalExponent - n + 1) = some d := by
  have hone := one_le_of_hasDigits hb hy hn
  obtain ⟨d, k, hd, rfl⟩ := hn
  rcases le_or_gt (b.decimalExponent - n + 1) k with hk | hk
  · -- The number is a multiple of the last digit's place.
    obtain ⟨i, hi⟩ := Int.eq_ofNat_of_zero_le (Int.sub_nonneg_of_le hk)
    refine exists_candidate? (j := d * 10 ^ i) hb ?_
    obtain rfl : k = i + (b.decimalExponent - n + 1) := by omega
    rw [zpow_add₀ (by norm_num), zpow_natCast, ← mul_assoc] at hy
    push_cast
    exact hy
  · -- The number is smaller than the power of ten below the magnitude, which rounds to it too.
    have hfirst := (decimalExponent_spec hb).1
    have hle : (d : ℚ) * 10 ^ k ≤ 10 ^ b.decimalExponent := by
      calc (d : ℚ) * 10 ^ k ≤ 10 ^ n * 10 ^ k := by
            refine mul_le_mul_of_nonneg_right ?_ (by positivity)
            exact_mod_cast hd.le
        _ = 10 ^ (n + k) := by rw [zpow_add₀ (by norm_num), zpow_natCast]
        _ ≤ 10 ^ b.decimalExponent := zpow_le_zpow_right₀ (by norm_num) (by omega)
    refine exists_candidate? (j := 10 ^ (n - 1)) hb ?_
    have hplace : ((10 ^ (n - 1) : ℕ) : ℚ) * 10 ^ (b.decimalExponent - n + 1) =
        10 ^ b.decimalExponent := by
      push_cast
      rw [← zpow_natCast, ← zpow_add₀ (by norm_num)]
      congr 1
      omega
    rw [hplace]
    exact hy.between b.isNearest_value hle hfirst hb

theorem candidate_le {n d : ℕ} (hb : b.mantissa ≠ 0)
    (h : b.candidate? (b.decimalExponent - n + 1) = some d) : d ≤ 10 ^ n := by
  have hlt : b.floorScaled (b.decimalExponent - n + 1) < 10 ^ n := by
    rw [← not_le, le_floorScaled_iff, not_le]
    refine (decimalExponent_spec hb).2.trans_le (le_of_eq ?_)
    push_cast
    rw [← zpow_natCast, ← zpow_add₀ (by norm_num)]
    congr 1
    omega
  rcases (isNearest_of_candidate? hb h).2 with rfl | rfl
  · exact hlt.le
  · exact hlt

/-- The search adds digits until a number with so many rounds to the magnitude. -/
theorem isShortest_search {digits fuel : ℕ} (hb : b.mantissa ≠ 0) (hdigits : 1 ≤ digits)
    (hfuel : digits + fuel = 18)
    (hnone : ∀ n, 1 ≤ n → n < digits → b.candidate? (b.decimalExponent - n + 1) = none) :
    b.IsShortest ((b.search digits fuel).1 * 10 ^ (b.search digits fuel).2) := by
  induction fuel generalizing digits with
  | zero =>
    obtain ⟨j, hj⟩ := exists_isNearest_seventeen hb
    obtain ⟨d, hd⟩ := exists_candidate? hb hj
    have hseventeen := hnone 17 (by omega) (by omega)
    rw [show b.decimalExponent - (17 : ℕ) + 1 = b.decimalExponent - 16 by omega, hd] at hseventeen
    cases hseventeen
  | succ fuel ih =>
    rw [search]
    split
    · next d hd =>
      refine ⟨(isNearest_of_candidate? hb hd).1, fun n y hy hn => ?_⟩
      have hle : digits ≤ n := by
        by_contra hlt
        obtain ⟨d', hd'⟩ := exists_candidate?_of_hasDigits hb hy hn
        rw [hnone n (one_le_of_hasDigits hb hy hn) (not_le.mp hlt)] at hd'
        cases hd'
      exact (hasDigits_of_le hdigits (candidate_le hb hd) _).mono hle
    · next hnext =>
      refine ih (by omega) (by omega) fun n hone hn => ?_
      rcases Nat.lt_succ_iff_lt_or_eq.mp hn with hlt | rfl
      · exact hnone n hone hlt
      · exact hnext

end Binary64

end FormCheck
