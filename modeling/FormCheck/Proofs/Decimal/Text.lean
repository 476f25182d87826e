import FormCheck.Proofs.Decimal.Shortest
import FormCheck.Text.Digits
import Mathlib.Data.List.TakeWhile

/-!
# What decimal texts denote

## Main definitions

* `Decimal.Denotes`: the numbers that texts with a point or an exponent write.

## Main results

* `Binary64.exists_denotes_text`: the text of a magnitude writes a number with the fewest digits
  that round to it.
-/

namespace FormCheck

namespace Text

theorem ofDigits_append (ds es : List Char) :
    ofDigits (ds ++ es) = ofDigits ds * 10 ^ es.length + ofDigits es := by
  induction es using List.reverseRecOn with
  | nil => simp
  | append_singleton es e ih =>
    rw [← List.append_assoc, ofDigits_append_singleton, ofDigits_append_singleton, ih,
      List.length_append, List.length_singleton, pow_succ]
    ring

theorem ofDigits_replicate_zero (n : ℕ) : ofDigits (List.replicate n '0') = 0 := by
  induction n with
  | zero => rfl
  | succ n ih => rw [List.replicate_succ', ofDigits_append_singleton, ih]; rfl

theorem ofDigits_toDigits (n : ℕ) : ofDigits (Nat.toDigits 10 n) = n :=
  Nat.ofDigitChars_toDigits (by decide) (by decide)

end Text

namespace Decimal

open Text

/-- At least one digit, and nothing else. -/
structure IsDigits (ds : List Char) : Prop where
  ne_nil : ds ≠ []
  isDigit : ∀ c ∈ ds, c.isDigit = true

theorem isDigits_toDigits (n : ℕ) : IsDigits (Nat.toDigits 10 n) :=
  ⟨Nat.toDigits_ne_nil, fun _ hc => Nat.isDigit_of_mem_toDigits (by decide) (by decide) hc⟩

/-- The number that digits write, with a point among them or without. -/
inductive Counts : List Char → ℚ → Prop
  | whole {ds : List Char} (hd : IsDigits ds) : Counts ds (ofDigits ds)
  | point {ds es : List Char} (hd : IsDigits ds) (he : IsDigits es) :
      Counts (ds ++ '.' :: es) (ofDigits (ds ++ es) / 10 ^ es.length)

/-- The number that a text with a point or with an exponent writes. -/
inductive Denotes : List Char → ℚ → Prop
  | plain {u : List Char} {x : ℚ} (hu : Counts u x) (hp : '.' ∈ u) : Denotes u x
  | up {u es : List Char} {x : ℚ} (hu : Counts u x) (he : IsDigits es) :
      Denotes (u ++ 'e' :: '+' :: es) (x * 10 ^ ofDigits es)
  | down {u es : List Char} {x : ℚ} (hu : Counts u x) (he : IsDigits es) :
      Denotes (u ++ 'e' :: '-' :: es) (x / 10 ^ ofDigits es)

end Decimal

namespace Binary64

open Decimal Text

variable {ds : List Char}

/-! ## Plain texts -/

theorem isDigit_of_mem_replicate {n : ℕ} {c : Char} (h : c ∈ List.replicate n '0') :
    c.isDigit = true := by
  rw [List.eq_of_mem_replicate h]
  rfl

/-- Digits up to the point, filled up with zeros. -/
theorem counts_of_length_le (hd : IsDigits ds) {m : ℕ} (hm : ds.length ≤ m) :
    Counts (ds ++ List.replicate (m - ds.length) '0' ++ ['.', '0'])
      (ofDigits ds * 10 ^ ((m : ℤ) - ds.length)) := by
  have hw : IsDigits (ds ++ List.replicate (m - ds.length) '0') := by
    refine ⟨by simp [hd.ne_nil], fun c hc => ?_⟩
    rcases List.mem_append.mp hc with hc | hc
    · exact hd.isDigit c hc
    · exact isDigit_of_mem_replicate hc
  have hzero : IsDigits ['0'] := ⟨by simp, by simp⟩
  have hvalue : (ofDigits (ds ++ List.replicate (m - ds.length) '0' ++ ['0']) : ℚ) /
      10 ^ ['0'].length = ofDigits ds * 10 ^ ((m : ℤ) - ds.length) := by
    rw [← Int.ofNat_sub hm, zpow_natCast, ofDigits_append, ofDigits_append,
      ofDigits_replicate_zero, List.length_replicate]
    have hdigit : ofDigits ['0'] = 0 := rfl
    rw [hdigit]
    push_cast
    simp
  have h := Counts.point hw hzero
  rw [hvalue, List.append_assoc] at h
  rwa [List.append_assoc]

/-- A point among the digits. -/
theorem counts_of_lt_length (hd : IsDigits ds) {m : ℕ} (hpos : 0 < m) (hm : m < ds.length) :
    Counts (ds.take m ++ '.' :: ds.drop m) (ofDigits ds * 10 ^ ((m : ℤ) - ds.length)) := by
  have hw : IsDigits (ds.take m) :=
    ⟨by simp [hd.ne_nil, hpos.ne'], fun c hc => hd.isDigit c (List.mem_of_mem_take hc)⟩
  have he : IsDigits (ds.drop m) :=
    ⟨by simpa using hm, fun c hc => hd.isDigit c (List.mem_of_mem_drop hc)⟩
  have h := Counts.point hw he
  have hexp : (m : ℤ) - ds.length = -((ds.length - m : ℕ) : ℤ) := by omega
  rw [List.take_append_drop, List.length_drop] at h
  rwa [hexp, zpow_neg, zpow_natCast, ← div_eq_mul_inv]

/-- A point before the digits, with zeros behind it. -/
theorem counts_zero (hd : IsDigits ds) (m : ℕ) :
    Counts (['0', '.'] ++ List.replicate m '0' ++ ds)
      (ofDigits ds * 10 ^ (-(m : ℤ) - ds.length)) := by
  have hzero : IsDigits ['0'] := ⟨by simp, by simp⟩
  have he : IsDigits (List.replicate m '0' ++ ds) := by
    refine ⟨by simp [hd.ne_nil], fun c hc => ?_⟩
    rcases List.mem_append.mp hc with hc | hc
    · exact isDigit_of_mem_replicate hc
    · exact hd.isDigit c hc
  have h := Counts.point hzero he
  have hvalue : ofDigits (['0'] ++ (List.replicate m '0' ++ ds)) = ofDigits ds := by
    have hdigit : ofDigits ['0'] = 0 := rfl
    rw [ofDigits_append, ofDigits_append, ofDigits_replicate_zero, hdigit]
    simp
  have hexp : -(m : ℤ) - ds.length = -((m + ds.length : ℕ) : ℤ) := by omega
  rw [hvalue, List.length_append, List.length_replicate] at h
  rw [hexp, zpow_neg, zpow_natCast, ← div_eq_mul_inv]
  simpa using h

theorem denotes_plainText (hd : IsDigits ds) (n : ℤ) :
    Denotes (plainText ds n) (ofDigits ds * 10 ^ (n - ds.length)) := by
  have hpoint : '.' ∈ plainText ds n := by
    rw [plainText]
    split <;> simp
  refine .plain ?_ hpoint
  unfold plainText
  dsimp only
  split
  · next hn =>
    obtain ⟨m, rfl⟩ := Int.eq_ofNat_of_zero_le hn.le
    rw [Int.toNat_natCast]
    rcases lt_or_ge m ds.length with hlt | hle
    · have hrest : (ds.drop m).isEmpty = false := by simpa using hlt
      rw [hrest, List.length_take_of_le hlt.le, Nat.sub_self]
      simpa using counts_of_lt_length hd (by omega) hlt
    · rw [List.take_of_length_le hle, List.drop_eq_nil_of_le hle]
      exact counts_of_length_le hd hle
  · next hn =>
    obtain ⟨m, hm⟩ := Int.eq_ofNat_of_zero_le (Int.neg_nonneg_of_nonpos (not_lt.mp hn))
    obtain rfl : n = -m := by omega
    rw [neg_neg, Int.toNat_natCast]
    exact counts_zero hd m

/-! ## Texts with an exponent -/

/-- A point behind the first digit if there are more. -/
theorem counts_first (hd : IsDigits ds) :
    Counts (ds.take 1 ++ if ds.length ≤ 1 then [] else '.' :: ds.drop 1)
      (ofDigits ds * 10 ^ (1 - (ds.length : ℤ))) := by
  split
  · next hle =>
    have hlen : ds.length = 1 := by
      have := List.length_pos_of_ne_nil hd.ne_nil
      omega
    rw [List.append_nil, List.take_of_length_le hle, hlen, Nat.cast_one, sub_self, zpow_zero,
      mul_one]
    exact .whole hd
  · next hlt => exact counts_of_lt_length hd Nat.one_pos (not_le.mp hlt)

theorem denotes_exponentText (hd : IsDigits ds) (e : ℤ) :
    Denotes (exponentText ds e) (ofDigits ds * 10 ^ (e + 1 - ds.length)) := by
  have hfirst := counts_first hd
  have hes := isDigits_toDigits e.natAbs
  have hvalue : (ofDigits ds : ℚ) * 10 ^ (e + 1 - ds.length) =
      ofDigits ds * 10 ^ (1 - (ds.length : ℤ)) * 10 ^ e := by
    rw [mul_assoc, ← zpow_add₀ (by norm_num)]
    congr 2
    omega
  rw [hvalue, exponentText]
  rcases lt_or_ge e 0 with he | he
  · have hexp : (10 : ℚ) ^ e = (10 ^ ofDigits (Nat.toDigits 10 e.natAbs))⁻¹ := by
      rw [ofDigits_toDigits, ← zpow_natCast, ← zpow_neg]
      congr 1
      omega
    rw [hexp, ← div_eq_mul_inv, if_pos he, List.append_assoc]
    exact .down hfirst hes
  · have hexp : (10 : ℚ) ^ e = 10 ^ ofDigits (Nat.toDigits 10 e.natAbs) := by
      rw [ofDigits_toDigits, ← zpow_natCast]
      congr 1
      omega
    rw [hexp, if_neg (not_lt.mpr he), List.append_assoc]
    exact .up hfirst hes

/-! ## The text of a magnitude -/

theorem exists_eq_trimZeros_append (ds : List Char) :
    ∃ z, ds = trimZeros ds ++ List.replicate z '0' := by
  refine ⟨(ds.reverse.takeWhile (· == '0')).length, ?_⟩
  have hzeros : ds.reverse.takeWhile (· == '0') =
      List.replicate (ds.reverse.takeWhile (· == '0')).length '0' :=
    List.eq_replicate_of_mem fun c hc => by simpa using List.mem_takeWhile_imp hc
  rw [← List.reverse_inj, List.reverse_append, List.reverse_replicate, ← hzeros, trimZeros,
    List.reverse_reverse, List.takeWhile_append_dropWhile]

/-- Zeros at the end of the digits only count for the place of the last one. -/
theorem shortest_spec {b : Binary64} (hb : b.mantissa ≠ 0) :
    IsDigits b.shortest.1 ∧
      b.IsShortest (ofDigits b.shortest.1 * 10 ^ (b.shortest.2 + 1 - b.shortest.1.length)) := by
  have hsearch := isShortest_search hb (le_refl 1) (rfl : 1 + maxDigits = 18) (by omega)
  unfold shortest
  generalize b.search 1 maxDigits = found at hsearch
  obtain ⟨d, k⟩ := found
  dsimp only at hsearch ⊢
  obtain ⟨z, hz⟩ := exists_eq_trimZeros_append (Nat.toDigits 10 d)
  have hd : d = ofDigits (trimZeros (Nat.toDigits 10 d)) * 10 ^ z := by
    conv_lhs => rw [← ofDigits_toDigits d, hz]
    rw [ofDigits_append, ofDigits_replicate_zero, List.length_replicate, Nat.add_zero]
  have hlen : (Nat.toDigits 10 d).length = (trimZeros (Nat.toDigits 10 d)).length + z := by
    conv_lhs => rw [hz]
    rw [List.length_append, List.length_replicate]
  have hmem : ∀ c ∈ trimZeros (Nat.toDigits 10 d), c.isDigit = true := by
    intro c hc
    refine (isDigits_toDigits d).isDigit c ?_
    rw [hz]
    exact List.mem_append_left _ hc
  generalize trimZeros (Nat.toDigits 10 d) = ts at *
  have hvalue : (ofDigits ts : ℚ) * 10 ^ (k + (Nat.toDigits 10 d).length - 1 + 1 - ts.length) =
      d * 10 ^ k := by
    have hexp : k + (Nat.toDigits 10 d).length - 1 + 1 - ts.length = z + k := by omega
    rw [hexp, zpow_add₀ (by norm_num), zpow_natCast, ← mul_assoc]
    conv_rhs => rw [hd]
    push_cast
    rfl
  refine ⟨⟨?_, hmem⟩, hvalue ▸ hsearch⟩
  rintro rfl
  have hpos := pos_of_isNearest hb hsearch.isNearest
  rw [hd] at hpos
  simp at hpos

theorem isShortest_of_mantissa_eq_zero {b : Binary64} (hb : b.mantissa = 0) : b.IsShortest 0 := by
  have hvalue : b.value = 0 := by
    rw [value, hb]
    simp
  refine ⟨hvalue ▸ b.isNearest_value, fun n _ _ _ => ⟨0, 0, by positivity, by simp⟩⟩

/-- The text of a magnitude writes a number with the fewest digits that round to it. -/
theorem exists_denotes_text (b : Binary64) : ∃ x, Denotes b.text x ∧ b.IsShortest x := by
  unfold text isZero
  by_cases hb : b.mantissa = 0
  · have hzero : IsDigits ['0'] := ⟨by simp, by simp⟩
    have hvalue : (ofDigits (['0'] ++ ['0']) : ℚ) / 10 ^ ['0'].length = 0 := by
      have hdigits : ofDigits (['0'] ++ ['0']) = 0 := rfl
      rw [hdigits]
      simp
    rw [if_pos (by simpa using hb)]
    exact ⟨0, .plain (hvalue ▸ .point hzero hzero) (by simp), isShortest_of_mantissa_eq_zero hb⟩
  · obtain ⟨hd, hshort⟩ := shortest_spec hb
    rw [if_neg (by simpa using hb)]
    refine ⟨_, ?_, hshort⟩
    dsimp only
    split
    · exact denotes_plainText hd _
    · exact denotes_exponentText hd _

end Binary64

end FormCheck
