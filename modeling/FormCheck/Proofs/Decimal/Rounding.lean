import FormCheck.Proofs.Decimal.Nearest

/-!
# Rounded operations

A fraction is rounded in two steps. The exponent is that of its 53 leading bits, unless these go
further down than a magnitude does, and the mantissa is the nearest integer at this exponent. A
mantissa that is rounded up to the next power of two takes the next exponent.

## Main definitions

* `Binary64.RoundsTo`: what a number is rounded to, if anything.

## Main results

* `Binary64.roundDiv_spec`, `Binary64.exponentOfRatio_spec`: what the two steps find.
* `Binary64.roundsTo_ofRatio?`: a fraction is rounded to the nearest magnitude, unless it is too
  large.
* `Binary64.roundsTo_ofNat?`, `Binary64.roundsTo_mul?`, `Binary64.roundsTo_div?`: so are integers,
  products and quotients.
-/

namespace FormCheck

namespace Binary64

open Decimal

/-- Whether a number rounds to a magnitude, or has none to round to: it is at least half way from
the greatest magnitude to the number that would come next. -/
def RoundsTo (x : ℚ) : Option Binary64 → Prop
  | some b => b.IsNearest x
  | none => (2 ^ 54 - 1) * 2 ^ 970 ≤ x

variable {num den : ℕ} {x : ℚ}

/-! ## Mantissas -/

theorem roundDiv_bounds (num : ℕ) {den : ℕ} (hden : 0 < den) :
    2 * (den * roundDiv num den) ≤ 2 * num + den ∧ 2 * num ≤ 2 * (den * roundDiv num den) + den ∧
      (roundDiv num den % 2 = 1 → 2 * (den * roundDiv num den) < 2 * num + den ∧
        2 * num < 2 * (den * roundDiv num den) + den) := by
  have hsplit := Nat.div_add_mod num den
  have hrest := Nat.mod_lt num hden
  have hnext : den * (num / den + 1) = den * (num / den) + den := Nat.mul_succ ..
  unfold roundDiv
  grind

/-- A fraction is at most one half away from the integer that it is rounded to, and less if that
is odd. -/
theorem roundDiv_spec (num : ℕ) {den : ℕ} (hden : 0 < den) :
    (roundDiv num den : ℚ) - 1 / 2 ≤ num / den ∧ (num / den : ℚ) ≤ roundDiv num den + 1 / 2 ∧
      (roundDiv num den % 2 = 1 → (roundDiv num den : ℚ) - 1 / 2 < num / den ∧
        (num / den : ℚ) < roundDiv num den + 1 / 2) := by
  have hpos : (0 : ℚ) < den := by exact_mod_cast hden
  obtain ⟨hlo, hhi, hodd⟩ := roundDiv_bounds num hden
  have hlo : (2 * (den * roundDiv num den) : ℚ) ≤ 2 * num + den := by exact_mod_cast hlo
  have hhi : (2 * num : ℚ) ≤ 2 * (den * roundDiv num den) + den := by exact_mod_cast hhi
  rw [le_div_iff₀ hpos, div_le_iff₀ hpos, lt_div_iff₀ hpos, div_lt_iff₀ hpos]
  refine ⟨by linarith, by linarith, fun h => ?_⟩
  have hlt : (2 * (den * roundDiv num den) : ℚ) < 2 * num + den := by exact_mod_cast (hodd h).1
  have hgt : (2 * num : ℚ) < 2 * (den * roundDiv num den) + den := by exact_mod_cast (hodd h).2
  constructor <;> linarith

/-! ## Exponents -/

theorem scaleRatio_spec (num : ℕ) {den : ℕ} (hden : 0 < den) (e : ℤ) :
    0 < (scaleRatio num den e).2 ∧
      ((scaleRatio num den e).1 : ℚ) / (scaleRatio num den e).2 = num / den * 2 ^ e := by
  unfold scaleRatio
  split
  · next he =>
    obtain ⟨n, rfl⟩ := Int.eq_ofNat_of_zero_le he
    refine ⟨hden, ?_⟩
    rw [Int.toNat_natCast, Nat.cast_mul, cast_twoPow, zpow_natCast]
    ring
  · next he =>
    obtain ⟨n, hn⟩ := Int.eq_ofNat_of_zero_le (show 0 ≤ -e by omega)
    obtain rfl : e = -n := by omega
    refine ⟨Nat.mul_pos hden (twoPow_pos _), ?_⟩
    rw [neg_neg, Int.toNat_natCast, Nat.cast_mul, cast_twoPow, zpow_neg, zpow_natCast]
    ring

/-- Whether a fraction at an exponent has at most 52 bits before the point. -/
theorem scaleRatio_lt_iff (num : ℕ) {den : ℕ} (hden : 0 < den) (e : ℤ) :
    (scaleRatio num den (-e)).1 < twoPow 52 * (scaleRatio num den (-e)).2 ↔
      (num / den : ℚ) < 2 ^ 52 * 2 ^ e := by
  obtain ⟨hd, hscale⟩ := scaleRatio_spec num hden (-e)
  have hpos : (0 : ℚ) < (scaleRatio num den (-e)).2 := by exact_mod_cast hd
  rw [← Nat.cast_lt (α := ℚ), Nat.cast_mul, cast_twoPow, ← div_lt_iff₀ hpos, hscale, zpow_neg,
    ← div_eq_mul_inv, div_lt_iff₀ (by positivity)]

theorem two_pow_mul_two_zpow {k : ℕ} {e e' : ℤ} (h : k + e = e') :
    (2 : ℚ) ^ k * 2 ^ e = 2 ^ e' := by
  rw [← h, zpow_add₀ (by norm_num), zpow_natCast]

/-- A fraction lies between the powers of two that its parts are next to. -/
theorem two_zpow_lt_ratio (hnum : 0 < num) (hden : 0 < den) :
    (2 : ℚ) ^ ((Nat.log2 num : ℤ) - Nat.log2 den - 1) < num / den ∧
      (num / den : ℚ) < 2 ^ ((Nat.log2 num : ℤ) - Nat.log2 den + 1) := by
  have hpos : (0 : ℚ) < den := by exact_mod_cast hden
  have hnumLo : (2 : ℚ) ^ Nat.log2 num ≤ num := by exact_mod_cast Nat.log2_self_le hnum.ne'
  have hnumHi : (num : ℚ) < 2 ^ (Nat.log2 num + 1) := by exact_mod_cast Nat.lt_log2_self
  have hdenLo : (2 : ℚ) ^ Nat.log2 den ≤ den := by exact_mod_cast Nat.log2_self_le hden.ne'
  have hdenHi : (den : ℚ) < 2 ^ (Nat.log2 den + 1) := by exact_mod_cast Nat.lt_log2_self
  generalize Nat.log2 num = a at *
  generalize Nat.log2 den = b at *
  constructor
  · have hpower : (2 : ℚ) ^ (b + 1) * 2 ^ ((a : ℤ) - b - 1) = 2 ^ a :=
      (two_pow_mul_two_zpow (by push_cast; ring)).trans (zpow_natCast 2 a)
    rw [lt_div_iff₀ hpos, mul_comm]
    calc (den : ℚ) * 2 ^ ((a : ℤ) - b - 1) < 2 ^ (b + 1) * 2 ^ ((a : ℤ) - b - 1) := by gcongr
      _ = 2 ^ a := hpower
      _ ≤ num := hnumLo
  · have hpower : (2 : ℚ) ^ b * 2 ^ ((a : ℤ) - b + 1) = 2 ^ (a + 1) :=
      (two_pow_mul_two_zpow (by push_cast; ring)).trans (zpow_natCast 2 (a + 1))
    rw [div_lt_iff₀ hpos, mul_comm]
    calc (num : ℚ) < 2 ^ (a + 1) := hnumHi
      _ = 2 ^ b * 2 ^ ((a : ℤ) - b + 1) := hpower.symm
      _ ≤ den * 2 ^ ((a : ℤ) - b + 1) := by gcongr

/-- The exponent at which a fraction has 53 bits before the point. -/
theorem exists_exponentOfRatio_eq (hnum : 0 < num) (hden : 0 < den) :
    ∃ e, exponentOfRatio num den = max e (-1074) ∧
      (2 ^ 52 * 2 ^ e : ℚ) ≤ num / den ∧ (num / den : ℚ) < 2 ^ 53 * 2 ^ e := by
  obtain ⟨hlo, hhi⟩ := two_zpow_lt_ratio hnum hden
  have hsmall := scaleRatio_lt_iff num hden (Nat.log2 num - Nat.log2 den - 52)
  generalize hc : (Nat.log2 num : ℤ) - Nat.log2 den = c at hlo hhi hsmall
  simp only [exponentOfRatio, hc]
  by_cases h : (num / den : ℚ) < 2 ^ 52 * 2 ^ (c - 52)
  · refine ⟨c - 52 - 1, by rw [if_pos (hsmall.mpr h)]; rfl, ?_, ?_⟩
    · rw [two_pow_mul_two_zpow (show ((52 : ℕ) : ℤ) + (c - 52 - 1) = c - 1 by omega)]
      exact hlo.le
    · rw [two_pow_mul_two_zpow (show ((53 : ℕ) : ℤ) + (c - 52 - 1) = c by omega)]
      rwa [two_pow_mul_two_zpow (show ((52 : ℕ) : ℤ) + (c - 52) = c by omega)] at h
  · refine ⟨c - 52, by rw [if_neg (hsmall.not.mpr h)]; rfl, not_lt.mp h, ?_⟩
    rw [two_pow_mul_two_zpow (show ((53 : ℕ) : ℤ) + (c - 52) = c + 1 by omega)]
    exact hhi

theorem exponentOfRatio_spec (hnum : 0 < num) (hden : 0 < den) :
    -1074 ≤ exponentOfRatio num den ∧ (num / den : ℚ) < 2 ^ 53 * 2 ^ exponentOfRatio num den ∧
      (exponentOfRatio num den = -1074 ∨
        2 ^ 52 * 2 ^ exponentOfRatio num den ≤ (num / den : ℚ)) := by
  obtain ⟨e, he, hlo, hhi⟩ := exists_exponentOfRatio_eq hnum hden
  rw [he]
  refine ⟨le_max_right _ _, hhi.trans_le ?_, ?_⟩
  · gcongr
    · norm_num
    · exact le_max_left _ _
  · rcases le_total e (-1074) with h | h
    · exact .inl (max_eq_right h)
    · rw [max_eq_left h]
      exact .inr hlo

/-! ## Magnitudes -/

/-- A mantissa and an exponent are a magnitude unless the exponent is too great. -/
theorem ofParts?_cases {m : ℕ} {e : ℤ} (hm : m < twoPow 53) (he : minExponent ≤ e)
    (hnormal : e = minExponent ∨ twoPow 52 ≤ m) :
    (∃ b, ofParts? m e = some b ∧ b.mantissa = m ∧ b.exponent = e) ∨
      ofParts? m e = none ∧ maxExponent < e := by
  by_cases h : e ≤ maxExponent
  · exact .inl ⟨⟨m, e, hm, he, h, hnormal⟩, dif_pos ⟨hm, ⟨he, h⟩, hnormal⟩, rfl, rfl⟩
  · exact .inr ⟨dif_neg fun hparts => h hparts.2.1.2, not_le.mp h⟩

/-- Half way to the first number that is too large, and from there on. -/
theorem le_of_maxExponent_lt {m : ℕ} {e : ℤ} (hm : twoPow 52 ≤ m) (he : maxExponent < e)
    (hlo : (m : ℚ) * 2 ^ e - spacingBelow m e / 2 ≤ x) :
    (2 ^ 54 - 1) * 2 ^ 970 ≤ x := by
  have hmin : minExponent < e := lt_trans (by decide) he
  have hpos : (0 : ℚ) < 2 ^ e := by positivity
  have hunit : (2 : ℚ) ^ 972 ≤ 2 ^ e := by
    rw [← zpow_natCast]
    exact zpow_le_zpow_right₀ (by norm_num) he
  have hmidpoint : ((2 : ℚ) ^ 52 - 1 / 4) * 2 ^ e ≤ x := by
    rw [spacingBelow] at hlo
    refine le_trans ?_ hlo
    generalize (2 : ℚ) ^ e = unit at hpos
    by_cases hpower : m = twoPow 52
    · rw [if_pos ⟨hpower, hmin⟩, hpower, cast_twoPow]
      linarith
    · have hm : (2 : ℚ) ^ 52 + 1 ≤ m := by
        rw [← cast_twoPow]
        exact_mod_cast Nat.lt_of_le_of_ne hm (Ne.symm hpower)
      have hscaled := mul_le_mul_of_nonneg_right hm hpos.le
      rw [if_neg fun h => hpower h.1]
      linarith
  calc (2 ^ 54 - 1 : ℚ) * 2 ^ 970 = (2 ^ 52 - 1 / 4) * 2 ^ 972 := by
        rw [show 972 = 970 + 2 from rfl, pow_add]
        generalize (2 : ℚ) ^ 970 = t
        ring
    _ ≤ (2 ^ 52 - 1 / 4) * 2 ^ e := mul_le_mul_of_nonneg_left hunit (by norm_num)
    _ ≤ x := hmidpoint

/-- A number that is at most half way from a mantissa to the next one, and to the one before, rounds
to it, and less than half way if the mantissa is odd. -/
theorem roundsTo_ofParts? {m : ℕ} {e : ℤ} (hm : m < twoPow 53) (he : minExponent ≤ e)
    (hnormal : e = minExponent ∨ twoPow 52 ≤ m)
    (hlo : (m : ℚ) * 2 ^ e - spacingBelow m e / 2 ≤ x)
    (hhi : x ≤ m * 2 ^ e + 2 ^ e / 2)
    (hodd : m % 2 = 1 → (m : ℚ) * 2 ^ e - 2 ^ e / 2 < x ∧ x < m * 2 ^ e + 2 ^ e / 2) :
    RoundsTo x (ofParts? m e) := by
  rcases ofParts?_cases hm he hnormal with ⟨b, hb, rfl, rfl⟩ | ⟨hnone, hlarge⟩
  · rw [hb]
    refine isNearest_of_bounds hlo hhi fun h => ?_
    have hbelow : b.unitBelow = 2 ^ b.exponent := by
      refine if_neg fun hpower => ?_
      rw [hpower.1] at h
      exact absurd h (by decide)
    rw [hbelow]
    exact hodd (by omega)
  · have hmin : minExponent < e := lt_trans (by decide) hlarge
    rw [hnone]
    exact le_of_maxExponent_lt (hnormal.resolve_left hmin.ne') hlarge hlo

/-- The mantissa of a fraction at its exponent has 53 bits, or is the next power of two. -/
theorem mantissa_spec (hnum : 0 < num) (hden : 0 < den) :
    let q := exponentOfRatio num den
    let m := roundDiv (scaleRatio num den (-q)).1 (scaleRatio num den (-q)).2
    m ≤ twoPow 53 ∧ (q = minExponent ∨ twoPow 52 ≤ m ∧ (2 ^ 52 * 2 ^ q : ℚ) ≤ num / den) ∧
      (m * 2 ^ q - 2 ^ q / 2 : ℚ) ≤ num / den ∧ (num / den : ℚ) ≤ m * 2 ^ q + 2 ^ q / 2 ∧
      (m % 2 = 1 → (m * 2 ^ q - 2 ^ q / 2 : ℚ) < num / den ∧
        (num / den : ℚ) < m * 2 ^ q + 2 ^ q / 2) := by
  intro q m
  obtain ⟨-, hhi, hlo⟩ := exponentOfRatio_spec hnum hden
  obtain ⟨hd, hscale⟩ := scaleRatio_spec num hden (-q)
  have hround := roundDiv_spec (scaleRatio num den (-q)).1 hd
  have hpos : (0 : ℚ) < 2 ^ q := by positivity
  rw [hscale, zpow_neg, ← div_eq_mul_inv] at hround
  simp only [le_div_iff₀ hpos, div_le_iff₀ hpos, lt_div_iff₀ hpos, div_lt_iff₀ hpos] at hround
  obtain ⟨hbelow, habove, hodd⟩ := hround
  refine ⟨?_, ?_, by linarith, by linarith, fun h => ?_⟩
  · have hm : (m : ℚ) - 1 / 2 < 2 ^ 53 := lt_of_mul_lt_mul_right (hbelow.trans_lt hhi) hpos.le
    have hm : (m : ℚ) < (twoPow 53 + 1 : ℕ) := by
      rw [Nat.cast_add, cast_twoPow]
      push_cast
      linarith
    exact Nat.lt_succ_iff.mp (by exact_mod_cast hm)
  · refine hlo.imp_right fun hlo => ⟨?_, hlo⟩
    have hm : (2 : ℚ) ^ 52 ≤ m + 1 / 2 := le_of_mul_le_mul_right (hlo.trans habove) hpos
    have hm : (twoPow 52 : ℚ) < (m + 1 : ℕ) := by
      rw [cast_twoPow]
      push_cast
      linarith
    exact Nat.lt_succ_iff.mp (by exact_mod_cast hm)
  · obtain ⟨hlt, hgt⟩ := hodd h
    constructor <;> linarith

/-- A fraction rounds to what is found, and if nothing is found it is too large. -/
theorem roundsTo_ofRatio? (num : ℕ) {den : ℕ} (hden : 0 < den) :
    RoundsTo (num / den) (ofRatio? num den) := by
  rcases Nat.eq_zero_or_pos num with rfl | hnum
  · have hzero : ((0 : ℕ) / den : ℚ) = zero.value := by simp [value, zero]
    rw [hzero]
    exact zero.isNearest_value
  obtain ⟨hq, hbits, -⟩ := exponentOfRatio_spec hnum hden
  have hmantissa := mantissa_spec hnum hden
  simp only [ofRatio?, if_neg hnum.ne'] at hmantissa ⊢
  generalize exponentOfRatio num den = q at *
  generalize roundDiv (scaleRatio num den (-q)).1 (scaleRatio num den (-q)).2 = m at *
  obtain ⟨hm, hnormal, hlo, hhi, hodd⟩ := hmantissa
  have hmin : minExponent < q + 1 := Int.lt_add_one_of_le hq
  by_cases hpower : m = twoPow 53
  · have hnext : (2 : ℚ) ^ (q + 1) = 2 ^ q * 2 := zpow_add_one₀ (by norm_num) q
    rw [hpower, cast_twoPow] at hlo
    rw [if_pos hpower]
    refine roundsTo_ofParts? (by decide) hmin.le (.inr le_rfl) ?_ ?_ fun h => ?_
    · rw [spacingBelow, if_pos ⟨rfl, hmin⟩, cast_twoPow, hnext]
      linarith
    · rw [cast_twoPow, hnext]
      linarith
    · exact absurd h (by decide)
  · rw [if_neg hpower]
    refine roundsTo_ofParts? (Nat.lt_of_le_of_ne hm hpower) hq (hnormal.imp_right And.left) ?_
      hhi hodd
    rw [spacingBelow]
    split
    · next hfirst =>
      have hfull := (hnormal.resolve_left hfirst.2.ne').2
      have hpos : (0 : ℚ) < 2 ^ q := by positivity
      rw [hfirst.1, cast_twoPow]
      linarith
    · exact hlo

/-! ## Operations -/

theorem roundsTo_ofNat? (n : ℕ) : RoundsTo n (ofNat? n) := by
  have h := roundsTo_ofRatio? n Nat.one_pos
  rwa [Nat.cast_one, div_one] at h

theorem roundsTo_mul? (a b : Binary64) : RoundsTo (a.value * b.value) (mul? a b) := by
  obtain ⟨hd, hscale⟩ := scaleRatio_spec (a.mantissa * b.mantissa) Nat.one_pos
    (a.exponent + b.exponent)
  have h := roundsTo_ofRatio? (scaleRatio (a.mantissa * b.mantissa) 1 (a.exponent + b.exponent)).1
    hd
  have hvalue : ((a.mantissa * b.mantissa : ℕ) : ℚ) / (1 : ℕ) * 2 ^ (a.exponent + b.exponent) =
      a.value * b.value := by
    rw [value, value, zpow_add₀ (by norm_num)]
    push_cast
    ring
  rwa [hscale, hvalue] at h

theorem roundsTo_div? (a : Binary64) {b : Binary64} (hb : b.mantissa ≠ 0) :
    RoundsTo (a.value / b.value) (div? a b) := by
  obtain ⟨hd, hscale⟩ := scaleRatio_spec a.mantissa (Nat.pos_of_ne_zero hb)
    (a.exponent - b.exponent)
  have h := roundsTo_ofRatio? (scaleRatio a.mantissa b.mantissa (a.exponent - b.exponent)).1 hd
  have hvalue : (a.mantissa : ℚ) / b.mantissa * 2 ^ (a.exponent - b.exponent) =
      a.value / b.value := by
    rw [value, value, zpow_sub₀ (by norm_num), div_mul_div_comm]
  rwa [hscale, hvalue] at h

end Binary64

end FormCheck
