import FormCheck.Validator.Builtin
import Mathlib.Data.List.Induction
import Mathlib.Data.Nat.Digits.Defs

/-!
# Minimum lengths

A modifier asks for as many characters as the number it starts with. The number is read digit by
digit, and one that no longer fits 64 bits counts as the greatest of these. No value is that long,
so that the limit never shows.

## Main definitions

* `leadingNumber`: the number that a modifier starts with, however large.

## Main results

* `foldlM_appendDigit?`: digits are read as the number that they write, if it fits.
* `minimumLength_eq_min`: the minimum is the number that the modifier starts with, up to the limit.
* `accepts_length_iff`: a value passes if it is long enough for that number.
-/

namespace FormCheck

namespace Text

/-- A number grows with each of its digits. -/
theorem le_foldl_digits (ds : List Char) (n : Nat) :
    n ≤ ds.foldl (fun n d => 10 * n + digitValue d) n := by
  induction ds generalizing n with
  | nil => exact Nat.le_refl n
  | cons d ds ih =>
    calc n ≤ 10 * n + digitValue d := by omega
      _ ≤ _ := ih _

theorem ofDigits_eq_natOfDigits (ds : List Char) :
    Nat.ofDigits 10 (ds.map digitValue).reverse = ofDigits ds := by
  induction ds using List.reverseRecOn with
  | nil => rfl
  | append_singleton ds d ih =>
    rw [List.map_append, List.reverse_append, ofDigits_append_singleton, ← ih]
    simp [Nat.ofDigits_cons, Nat.add_comm]

end Text

namespace Validator

/-! ## The number that a modifier starts with -/

/-- The decimal number of the longest run of ASCII digits behind blanks and at most one plus sign; 0
if there is no digit. -/
def leadingNumber (modifier : String) : Nat :=
  let s := modifier.toList.dropWhile Text.isBlank
  let unsigned := if s.head? = some '+' then s.tail else s
  Nat.ofDigits 10 ((unsigned.takeWhile Char.isDigit).map Text.digitValue).reverse

theorem dropPlus_eq (s : List Char) : dropPlus s = if s.head? = some '+' then s.tail else s := by
  unfold dropPlus
  split
  · rfl
  · next h =>
    rw [if_neg]
    intro hplus
    obtain ⟨t, rfl⟩ := List.head?_eq_some_iff.mp hplus
    exact h t rfl

/-- Digits read one by one give the number that they write, or nothing if it has more than 64
bits: a number that is too large at some digit is too large at the end. -/
theorem foldlM_appendDigit? (ds : List Char) {n : Nat} (hn : n ≤ maxMinimum) :
    ds.foldlM appendDigit? n =
      let number := ds.foldl (fun n d => 10 * n + Text.digitValue d) n
      if number ≤ maxMinimum then some number else none := by
  induction ds generalizing n with
  | nil => simp [hn]
  | cons d ds ih =>
    rw [List.foldlM_cons, List.foldl_cons, appendDigit?]
    by_cases hd : 10 * n + Text.digitValue d ≤ maxMinimum
    · simp [hd, ih hd]
    · have hgrow := Text.le_foldl_digits ds (10 * n + Text.digitValue d)
      simp [hd, show ¬_ ≤ maxMinimum from fun h => hd (hgrow.trans h)]

/-- The minimum is the number that the modifier starts with, as far as it has 64 bits. -/
theorem minimumLength_eq_min (modifier : String) :
    minimumLength modifier = min (leadingNumber modifier) maxMinimum := by
  rw [leadingNumber, Text.ofDigits_eq_natOfDigits, ← dropPlus_eq, minimumLength, Text.dropBlank]
  generalize dropPlus (modifier.toList.dropWhile Text.isBlank) = unsigned
  by_cases hsign : unsigned.head? = some '-'
  · -- A hyphen is no digit, so that the run of digits is empty.
    obtain ⟨s, rfl⟩ := List.head?_eq_some_iff.mp hsign
    simp
  · rw [if_neg hsign]
    by_cases hdigits : (unsigned.takeWhile Char.isDigit).isEmpty
    · simp [List.isEmpty_iff.mp hdigits]
    · rw [if_neg hdigits, foldlM_appendDigit? _ (Nat.zero_le _)]
      change (if Text.ofDigits _ ≤ _ then _ else none).getD _ = _
      split
      · next h => rw [Option.getD_some, Nat.min_eq_left h, Text.ofDigits]
      · next h => rw [Option.getD_none, Nat.min_eq_right (Nat.le_of_not_le h)]

/-! ## Values that are long enough -/

theorem accepts_length_modifier_iff {value : Option String} {modifier : String} :
    length.accepts value (some modifier) = true ↔
      minimumLength modifier = 0 ∨ ∃ v, value = some v ∧ minimumLength modifier ≤ v.length := by
  simp [length, Option.any_eq_true]

/-- A value passes a modifier if and only if the modifier starts with no number but zero, or the
value is present and has as many characters as the number says, which need not fit 64 bits. Without
a modifier every value passes, and with one every value that passes a greater number. -/
theorem accepts_length_iff (modifier : String) :
    minimumLength modifier = min (leadingNumber modifier) 18446744073709551615 ∧
      (∀ value : Option String, (∀ v, value = some v → v.length < 18446744073709551615) →
        (length.accepts value (some modifier) = true ↔
          leadingNumber modifier = 0 ∨
            ∃ v, value = some v ∧ leadingNumber modifier ≤ v.length)) ∧
      (∀ value, length.accepts value none = true) ∧
      ∀ value greater, leadingNumber modifier ≤ leadingNumber greater →
        length.accepts value (some greater) = true →
          length.accepts value (some modifier) = true := by
  have hmin : ∀ m, minimumLength m = min (leadingNumber m) 18446744073709551615 :=
    minimumLength_eq_min
  refine ⟨hmin modifier, fun value hvalue => ?_, fun value => rfl, fun value greater hle h => ?_⟩
  · rw [accepts_length_modifier_iff, hmin]
    refine or_congr (by omega) (exists_congr fun v => and_congr_right fun hv => ?_)
    have hlt := hvalue v hv
    omega
  · rw [accepts_length_modifier_iff, hmin] at h ⊢
    rcases h with h | ⟨v, hv, h⟩
    · exact .inl (by omega)
    · exact .inr ⟨v, hv, by omega⟩

/-- A number of more than 64 bits is as good as without a limit, and passes smaller ones. -/
theorem accepts_length_iff_too_large :
    minimumLength " +0018446744073709551616px" = 18446744073709551615 ∧
      (length.accepts (some "åäö") (some " +0018446744073709551616px") = true ↔
        leadingNumber " +0018446744073709551616px" = 0 ∨
          ∃ v, some "åäö" = some v ∧ leadingNumber " +0018446744073709551616px" ≤ v.length) ∧
      length.accepts (some "åäö") (some "3") = true := by
  obtain ⟨hmin, hvalue, -, -⟩ := accepts_length_iff " +0018446744073709551616px"
  have hnumber : leadingNumber " +0018446744073709551616px" = 18446744073709551616 := by decide
  refine ⟨by rw [hmin, hnumber]; decide, hvalue _ ?_, by decide⟩
  rintro v ⟨⟩
  decide

end Validator

end FormCheck
