import FormCheck.Decimal.Shortest
import Mathlib.Algebra.Order.Field.Power
import Mathlib.Algebra.Order.Group.Unbundled.Abs
import Mathlib.Data.Rat.Cast.Order
import Mathlib.Tactic.Linarith
import Mathlib.Tactic.NormNum
import Mathlib.Tactic.Positivity
import Mathlib.Tactic.Ring

/-!
# The magnitude nearest to a number

## Main definitions

* `Binary64.value`: the number that a magnitude is.
* `Binary64.IsNearest`: whether a number rounds to a magnitude.

## Main results

* `Binary64.roundsBack_iff`: the bounds of a magnitude are those of the numbers that round to it.
-/

namespace FormCheck

namespace Decimal

theorem zpow_mul_pow_toNat {x : ℚ} (hx : x ≠ 0) (e : ℤ) :
    x ^ e * x ^ (-e).toNat = x ^ e.toNat := by
  rcases le_total 0 e with he | he
  · obtain ⟨n, rfl⟩ := Int.eq_ofNat_of_zero_le he
    simp
  · obtain ⟨n, hn⟩ := Int.eq_ofNat_of_zero_le (Int.neg_nonneg_of_nonpos he)
    obtain rfl : e = -n := by omega
    simp [hx]

theorem cast_twoPow (n : ℕ) : (twoPow n : ℚ) = 2 ^ n := by
  simp [twoPow]

theorem cast_tenPow (n : ℕ) : (tenPow n : ℚ) = 10 ^ n := by
  simp [tenPow]

end Decimal

namespace Binary64

open Decimal

def value (b : Binary64) : ℚ := b.mantissa * 2 ^ b.exponent

/-- Whether a number rounds to a magnitude: no number of 53 bits is nearer, and none is as near
unless the mantissa is even. An exponent is limited below, and a number that rounds to one with a
greater exponent than a magnitude has rounds to none. -/
structure IsNearest (b : Binary64) (x : ℚ) : Prop where
  le : ∀ (m : ℕ) (e : ℤ), m < 2 ^ 53 → -1074 ≤ e → |x - b.value| ≤ |x - m * 2 ^ e|
  even : ∀ (m : ℕ) (e : ℤ), m < 2 ^ 53 → -1074 ≤ e → |x - b.value| = |x - m * 2 ^ e| →
    m * 2 ^ e = b.value ∨ b.mantissa % 2 = 0

/-! ## Exact comparison -/

section Comparison

variable {a b : ℕ} {k e : ℤ}

/-- Both sides of a comparison are scaled by the same factor. -/
theorem cast_scaled (a : ℕ) (k e : ℤ) :
    ((a * tenPow k.toNat * twoPow (-e).toNat : ℕ) : ℚ) =
        a * 10 ^ k * (10 ^ (-k).toNat * 2 ^ (-e).toNat) ∧
      ((a * twoPow e.toNat * tenPow (-k).toNat : ℕ) : ℚ) =
        a * 2 ^ e * (10 ^ (-k).toNat * 2 ^ (-e).toNat) := by
  push_cast [cast_tenPow, cast_twoPow]
  rw [← zpow_mul_pow_toNat (by norm_num : (10 : ℚ) ≠ 0) k,
    ← zpow_mul_pow_toNat (by norm_num : (2 : ℚ) ≠ 0) e]
  constructor <;> ring

theorem scaled_lt_iff :
    a * tenPow k.toNat * twoPow (-e).toNat < b * twoPow e.toNat * tenPow (-k).toNat ↔
      (a : ℚ) * 10 ^ k < b * 2 ^ e := by
  rw [← Nat.cast_lt (α := ℚ), (cast_scaled a k e).1, (cast_scaled b k e).2,
    mul_lt_mul_iff_left₀ (by positivity)]

theorem lt_scaled_iff :
    b * twoPow e.toNat * tenPow (-k).toNat < a * tenPow k.toNat * twoPow (-e).toNat ↔
      (b : ℚ) * 2 ^ e < a * 10 ^ k := by
  rw [← Nat.cast_lt (α := ℚ), (cast_scaled a k e).1, (cast_scaled b k e).2,
    mul_lt_mul_iff_left₀ (by positivity)]

theorem compareScaled_eq_lt_iff : compareScaled a k b e = .lt ↔ (a : ℚ) * 10 ^ k < b * 2 ^ e :=
  Nat.compare_eq_lt.trans scaled_lt_iff

theorem compareScaled_eq_gt_iff : compareScaled a k b e = .gt ↔ (b : ℚ) * 2 ^ e < a * 10 ^ k :=
  Nat.compare_eq_gt.trans lt_scaled_iff

end Comparison

/-! ## Neighbours -/

section Neighbours

variable {b : Binary64} {m : ℕ} {e : ℤ}

theorem two_pow_le_mantissa (h : minExponent < b.exponent) : (2 : ℚ) ^ 52 ≤ b.mantissa := by
  have hm : twoPow 52 ≤ b.mantissa := b.normal.resolve_left h.ne'
  rw [← cast_twoPow]
  exact_mod_cast hm

/-- A number with a smaller exponent than `b` lies below all numbers with the exponent of `b` and a
full mantissa. -/
theorem add_half_le_of_exponent_lt (hm : m < 2 ^ 53) (h : e < b.exponent) :
    (m : ℚ) * 2 ^ e + 2 ^ b.exponent / 2 ≤ 2 ^ 52 * 2 ^ b.exponent := by
  have hm : (m : ℚ) + 1 ≤ 2 ^ 53 := by exact_mod_cast hm
  have hunit : (2 : ℚ) ^ e ≤ 2 ^ b.exponent / 2 := by
    rw [div_eq_mul_inv, ← zpow_sub_one₀ (by norm_num)]
    exact zpow_le_zpow_right₀ (by norm_num) (by omega)
  have hpos : (0 : ℚ) < 2 ^ e := by positivity
  nlinarith

/-- Numbers with a greater exponent than `b` are multiples of its unit. -/
theorem exists_eq_of_exponent_le (h : b.exponent ≤ e) :
    ∃ n : ℕ, (m : ℚ) * 2 ^ e = n * 2 ^ b.exponent := by
  obtain ⟨k, hk⟩ := Int.eq_ofNat_of_zero_le (Int.sub_nonneg_of_le h)
  refine ⟨m * 2 ^ k, ?_⟩
  obtain rfl : e = k + b.exponent := by omega
  rw [zpow_add₀ (by norm_num), zpow_natCast]
  push_cast
  ring

theorem upperBound_eq (b : Binary64) :
    (b.upperBound : ℚ) * 2 ^ (b.exponent - 2) = b.value + 2 ^ b.exponent / 2 := by
  rw [upperBound, value, zpow_sub₀ (by norm_num)]
  push_cast
  ring

/-- The distance from `m * 2 ^ e` to the next smaller number, which is less below a power of two. -/
def spacingBelow (m : ℕ) (e : ℤ) : ℚ :=
  if m = twoPow 52 ∧ minExponent < e then 2 ^ e / 2 else 2 ^ e

def unitBelow (b : Binary64) : ℚ := spacingBelow b.mantissa b.exponent

theorem unitBelow_pos (b : Binary64) : 0 < b.unitBelow := by
  unfold unitBelow spacingBelow
  split <;> positivity

theorem lowerBound_eq (hb : b.mantissa ≠ 0) :
    (b.lowerBound : ℚ) * 2 ^ (b.exponent - 2) = b.value - b.unitBelow / 2 := by
  rw [lowerBound, unitBelow, spacingBelow, value, zpow_sub₀ (by norm_num)]
  split <;> rw [Nat.cast_sub (by omega)] <;> push_cast <;> ring

/-- No number with 53 bits comes before the next one. -/
theorem add_unit_le (hm : m < 2 ^ 53) (he : -1074 ≤ e) (h : b.value < m * 2 ^ e) :
    b.value + 2 ^ b.exponent ≤ m * 2 ^ e := by
  have hpos : (0 : ℚ) < 2 ^ b.exponent := by positivity
  rcases lt_or_ge e b.exponent with hlt | hle
  · have hbelow := add_half_le_of_exponent_lt hm hlt
    have hfull := two_pow_le_mantissa (he.trans_lt hlt)
    rw [value] at h
    nlinarith
  · obtain ⟨n, hn⟩ := exists_eq_of_exponent_le (m := m) hle
    rw [hn, value] at h ⊢
    have hlt : b.mantissa < n := by exact_mod_cast lt_of_mul_lt_mul_right h hpos.le
    have hnext : (b.mantissa : ℚ) + 1 ≤ n := by exact_mod_cast hlt
    nlinarith

/-- Nor after the one before. -/
theorem le_sub_unit (hm : m < 2 ^ 53) (he : -1074 ≤ e) (h : m * 2 ^ e < b.value) :
    m * 2 ^ e ≤ b.value - b.unitBelow := by
  have hpos : (0 : ℚ) < 2 ^ b.exponent := by positivity
  rcases lt_or_ge e b.exponent with hlt | hle
  · have hbelow := add_half_le_of_exponent_lt hm hlt
    have hmin : minExponent < b.exponent := he.trans_lt hlt
    have hfull := two_pow_le_mantissa hmin
    rw [value, unitBelow, spacingBelow]
    split
    · nlinarith
    · next hne =>
      have hne : twoPow 52 ≠ b.mantissa := fun h => hne ⟨h.symm, hmin⟩
      have hmore : twoPow 52 < b.mantissa :=
        lt_of_le_of_ne (b.normal.resolve_left hmin.ne') hne
      have hmore : (2 : ℚ) ^ 52 + 1 ≤ b.mantissa := by
        rw [← cast_twoPow]
        exact_mod_cast hmore
      nlinarith
  · obtain ⟨n, hn⟩ := exists_eq_of_exponent_le (m := m) hle
    rw [hn, value] at h ⊢
    have hlt : n < b.mantissa := by exact_mod_cast lt_of_mul_lt_mul_right h hpos.le
    have hnext : (n : ℚ) + 1 ≤ b.mantissa := by exact_mod_cast hlt
    rw [unitBelow, spacingBelow]
    split <;> nlinarith

theorem exists_eq_add_unit (b : Binary64) : ∃ (m : ℕ) (e : ℤ), m < 2 ^ 53 ∧ -1074 ≤ e ∧
    (m : ℚ) * 2 ^ e = b.value + 2 ^ b.exponent := by
  have hm : b.mantissa < 2 ^ 53 := b.mantissa_lt
  have he : -1074 ≤ b.exponent := b.minExponent_le
  rw [value]
  rcases Nat.lt_or_eq_of_le (Nat.succ_le_of_lt hm) with hlt | heq
  · refine ⟨b.mantissa + 1, b.exponent, hlt, he, ?_⟩
    push_cast
    ring
  · refine ⟨2 ^ 52, b.exponent + 1, by norm_num, by omega, ?_⟩
    have hm : (b.mantissa : ℚ) + 1 = 2 ^ 53 := by exact_mod_cast heq
    rw [zpow_add_one₀ (by norm_num), eq_sub_of_add_eq hm]
    push_cast
    ring

theorem exists_eq_sub_unit (hb : b.mantissa ≠ 0) : ∃ (m : ℕ) (e : ℤ), m < 2 ^ 53 ∧ -1074 ≤ e ∧
    (m : ℚ) * 2 ^ e = b.value - b.unitBelow := by
  have hm : b.mantissa < 2 ^ 53 := b.mantissa_lt
  have he : -1074 ≤ b.exponent := b.minExponent_le
  rw [value, unitBelow, spacingBelow]
  split
  · next h =>
    refine ⟨2 ^ 53 - 1, b.exponent - 1, by norm_num, Int.le_sub_one_of_lt h.2, ?_⟩
    rw [zpow_sub_one₀ (by norm_num), h.1, cast_twoPow]
    push_cast
    ring
  · refine ⟨b.mantissa - 1, b.exponent, by omega, he, ?_⟩
    rw [Nat.cast_sub (by omega)]
    push_cast
    ring

end Neighbours

/-! ## Numbers that round to a magnitude -/

section Rounding

variable {x y z : ℚ}

theorem abs_sub_le_iff_le_midpoint (h : y < z) : |x - y| ≤ |x - z| ↔ x ≤ (y + z) / 2 := by
  rw [← sq_le_sq]
  constructor <;> intro <;> nlinarith

theorem abs_sub_le_iff_midpoint_le (h : z < y) : |x - y| ≤ |x - z| ↔ (z + y) / 2 ≤ x := by
  rw [← sq_le_sq]
  constructor <;> intro <;> nlinarith

theorem abs_sub_eq_iff_eq_midpoint (h : y ≠ z) : |x - y| = |x - z| ↔ x = (y + z) / 2 := by
  rw [← sq_eq_sq_iff_abs_eq_abs]
  constructor
  · intro heq
    have hprod : (z - y) * (2 * x - y - z) = 0 := by linarith
    have hsum := (mul_eq_zero.mp hprod).resolve_left (sub_ne_zero.mpr h.symm)
    linarith
  · rintro rfl
    ring

variable {b : Binary64}

/-- What rounds to a magnitude lies between the midpoints next to it, and is none of these unless
the mantissa is even. -/
theorem IsNearest.bounds (h : b.IsNearest x) (hb : b.mantissa ≠ 0) :
    b.value - b.unitBelow / 2 ≤ x ∧ x ≤ b.value + 2 ^ b.exponent / 2 ∧
      (b.mantissa % 2 ≠ 0 →
        b.value - b.unitBelow / 2 < x ∧ x < b.value + 2 ^ b.exponent / 2) := by
  have habove : (0 : ℚ) < 2 ^ b.exponent := by positivity
  have hbelow := b.unitBelow_pos
  obtain ⟨m, e, hm, he, hnext⟩ := exists_eq_add_unit b
  obtain ⟨m', e', hm', he', hprev⟩ := exists_eq_sub_unit hb
  have hle := h.le m e hm he
  have hle' := h.le m' e' hm' he'
  have heven := h.even m e hm he
  have heven' := h.even m' e' hm' he'
  rw [hnext, abs_sub_le_iff_le_midpoint (by linarith)] at hle
  rw [hprev, abs_sub_le_iff_midpoint_le (by linarith)] at hle'
  rw [hnext, abs_sub_eq_iff_eq_midpoint (by linarith)] at heven
  rw [hprev, abs_sub_eq_iff_eq_midpoint (by linarith)] at heven'
  refine ⟨by linarith, by linarith, fun hodd => ⟨?_, ?_⟩⟩
  · refine lt_of_le_of_ne (by linarith) fun heq => ?_
    have hsame := (heven' (by linarith)).resolve_right hodd
    linarith
  · refine lt_of_le_of_ne (by linarith) fun heq => ?_
    have hsame := (heven (by linarith)).resolve_right hodd
    linarith

theorem isNearest_of_bounds (hlo : b.value - b.unitBelow / 2 ≤ x)
    (hhi : x ≤ b.value + 2 ^ b.exponent / 2)
    (hodd : b.mantissa % 2 ≠ 0 →
      b.value - b.unitBelow / 2 < x ∧ x < b.value + 2 ^ b.exponent / 2) : b.IsNearest x := by
  have habove : (0 : ℚ) < 2 ^ b.exponent := by positivity
  have hbelow := b.unitBelow_pos
  refine ⟨fun m e hm he => ?_, fun m e hm he htie => ?_⟩
  · rcases lt_trichotomy ((m : ℚ) * 2 ^ e) b.value with hlt | heq | hgt
    · have hprev := le_sub_unit hm he hlt
      exact (abs_sub_le_iff_midpoint_le hlt).mpr (by linarith)
    · rw [heq]
    · have hnext := add_unit_le hm he hgt
      exact (abs_sub_le_iff_le_midpoint hgt).mpr (by linarith)
  · by_contra! h
    obtain ⟨hne, heven⟩ := h
    obtain ⟨hlo, hhi⟩ := hodd heven
    rw [abs_sub_eq_iff_eq_midpoint hne.symm] at htie
    rcases lt_or_gt_of_ne hne with hlt | hgt
    · have hprev := le_sub_unit hm he hlt
      linarith
    · have hnext := add_unit_le hm he hgt
      linarith

/-- A number rounds to a magnitude if it lies between its bounds, which belong to even mantissas. -/
theorem isNearest_iff (hb : b.mantissa ≠ 0) : b.IsNearest x ↔
    if b.mantissa % 2 = 0 then
      b.lowerBound * 2 ^ (b.exponent - 2) ≤ x ∧ x ≤ b.upperBound * 2 ^ (b.exponent - 2)
    else b.lowerBound * 2 ^ (b.exponent - 2) < x ∧ x < b.upperBound * 2 ^ (b.exponent - 2) := by
  rw [lowerBound_eq hb, upperBound_eq]
  split
  · next heven =>
    constructor
    · intro h
      exact ⟨(h.bounds hb).1, (h.bounds hb).2.1⟩
    · rintro ⟨hlo, hhi⟩
      exact isNearest_of_bounds hlo hhi fun hodd => absurd heven hodd
  · next hodd =>
    constructor
    · intro h
      exact (h.bounds hb).2.2 hodd
    · rintro ⟨hlo, hhi⟩
      exact isNearest_of_bounds hlo.le hhi.le fun _ => ⟨hlo, hhi⟩

theorem isNearest_of_lt (hlo : b.value - b.unitBelow / 2 < x)
    (hhi : x < b.value + 2 ^ b.exponent / 2) : b.IsNearest x :=
  isNearest_of_bounds hlo.le hhi.le fun _ => ⟨hlo, hhi⟩

theorem isNearest_value (b : Binary64) : b.IsNearest b.value := by
  have habove : (0 : ℚ) < 2 ^ b.exponent := by positivity
  have hbelow := b.unitBelow_pos
  exact isNearest_of_lt (by linarith) (by linarith)

theorem roundsBack_iff (hb : b.mantissa ≠ 0) {d : ℕ} {k : ℤ} :
    b.roundsBack d k = true ↔ b.IsNearest (d * 10 ^ k) := by
  rw [isNearest_iff hb, roundsBack]
  split
  · simp [← not_lt, compareScaled_eq_lt_iff, compareScaled_eq_gt_iff]
  · simp [compareScaled_eq_lt_iff, compareScaled_eq_gt_iff]

end Rounding

end Binary64

end FormCheck
