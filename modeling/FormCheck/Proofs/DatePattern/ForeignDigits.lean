import FormCheck.Proofs.DatePattern.Merge
import Mathlib.Data.List.TakeWhile

/-!
# Digits that no token takes

The shape of a pattern lets a number be written with the digits of any script, while the reader
takes only ASCII digits. No token of the reader consumes one of the others, so that a value that is
read as a whole has exactly as many of them as the literals of its pattern.

## Main definitions

* `Text.isForeignDigit`: the decimal digits that are not ASCII digits.
* `Text.foreignDigits`: how many of them a text has.

## Main results

* `DatePattern.Token.foreignDigits_read`: reading a token leaves all of them behind.
* `DatePattern.Reading.foreignDigits_ofPieces`: those of a value that is read as a whole stand for
  literals.
-/

namespace FormCheck

/-! ## The class -/

namespace Text

def isForeignDigit (c : Char) : Bool := isDecimalDigit c && !c.isDigit

def foreignDigits (s : List Char) : Nat := s.countP isForeignDigit

theorem isDigit_iff {c : Char} : c.isDigit = true ↔ 48 ≤ c.toNat ∧ c.toNat ≤ 57 :=
  Char.isDigit_iff_toNat

theorem isDecimalDigit_of_isBlank {c : Char} (h : isBlank c = true) :
    isDecimalDigit c = false := by
  obtain ⟨i, hi, hi₁, hi₂⟩ := inIntervals_iff.mp h
  by_contra hd
  obtain ⟨j, hj, hj₁, hj₂⟩ := inIntervals_iff.mp (Bool.of_not_eq_false hd)
  have hdisj : ∀ i ∈ blankIntervals, ∀ j ∈ decimalDigitIntervals, i.2 < j.1 ∨ j.2 < i.1 := by
    decide +kernel
  have := hdisj i hi j hj
  omega

theorem isForeignDigit_of_isBlank {c : Char} (h : isBlank c = true) : isForeignDigit c = false := by
  simp [isForeignDigit, isDecimalDigit_of_isBlank h]

theorem isForeignDigit_of_isDigit {c : Char} (h : c.isDigit = true) : isForeignDigit c = false := by
  simp [isForeignDigit, h]

/-- The only decimal digits among the ASCII characters are the ASCII digits. -/
theorem isForeignDigit_of_lt {c : Char} (h : c.toNat < 128) : isForeignDigit c = false := by
  by_contra hf
  simp only [isForeignDigit, Bool.not_eq_false, Bool.and_eq_true, Bool.not_eq_true'] at hf
  obtain ⟨i, hi, hi₁, hi₂⟩ := inIntervals_iff.mp hf.1
  have hascii : ∀ i ∈ decimalDigitIntervals, i.1 < 128 → i = (48, 57) := by decide +kernel
  have := hascii i hi (by omega)
  subst this
  simp [isDigit_iff.mpr ⟨hi₁, hi₂⟩] at hf

theorem toNat_toLower (c : Char) :
    c.toLower.toNat = if 65 ≤ c.toNat ∧ c.toNat ≤ 90 then c.toNat + 32 else c.toNat := by
  have hA : 'A'.val.toNat = 65 := rfl
  have hZ : 'Z'.val.toNat = 90 := rfl
  have hc : c.val.toNat = c.toNat := rfl
  unfold Char.toLower
  simp only [ge_iff_le, UInt32.le_iff_toNat_le, hA, hZ, hc]
  split
  · show (c.val + ('a'.val - 'A'.val)).toNat = _
    rw [UInt32.toNat_add, show ('a'.val - 'A'.val).toNat = 32 from rfl, hc]
    omega
  · rfl

/-- A letter of either case of an ASCII character is one. -/
theorem toNat_lt_of_toLower_eq {c d : Char} (h : c.toLower = d.toLower) (hc : c.toNat < 128) :
    d.toNat < 128 := by
  have := congrArg Char.toNat h
  rw [toNat_toLower, toNat_toLower] at this
  split at this <;> split at this <;> omega

theorem foreignDigits_append (s u : List Char) :
    foreignDigits (s ++ u) = foreignDigits s + foreignDigits u := List.countP_append

theorem foreignDigits_cons_of_not {c : Char} (h : isForeignDigit c = false) (s : List Char) :
    foreignDigits (c :: s) = foreignDigits s := by
  simp [foreignDigits, h]

theorem foreignDigits_eq_zero {s : List Char} (h : ∀ c ∈ s, isForeignDigit c = false) :
    foreignDigits s = 0 := List.countP_eq_zero.mpr fun c hc => by simp [h c hc]

/-- Dropping characters of another class leaves all foreign digits behind. -/
theorem foreignDigits_dropWhile {p : Char → Bool} (h : ∀ c, p c = true → isForeignDigit c = false)
    (s : List Char) : foreignDigits (s.dropWhile p) = foreignDigits s := by
  induction s with
  | nil => rfl
  | cons c s ih =>
    cases hc : p c with
    | true => rw [List.dropWhile_cons_of_pos hc, ih, foreignDigits_cons_of_not (h c hc)]
    | false => rw [List.dropWhile_cons_of_neg (by simp [hc])]

theorem foreignDigits_dropBlank (s : List Char) :
    foreignDigits (dropBlank s) = foreignDigits s :=
  foreignDigits_dropWhile (fun _ => isForeignDigit_of_isBlank) s

/-- Dropping a prefix without foreign digits leaves all of them behind. -/
theorem foreignDigits_drop {n : Nat} {s : List Char}
    (h : ∀ c ∈ s.take n, isForeignDigit c = false) :
    foreignDigits (s.drop n) = foreignDigits s := by
  have hsum := foreignDigits_append (s.take n) (s.drop n)
  rw [List.take_append_drop, foreignDigits_eq_zero h, Nat.zero_add] at hsum
  exact hsum.symm

end Text

namespace DatePattern

open Text

/-! ## Taking numbers and names -/

theorem foreignDigits_takeNumber {width n : Nat} {s rest : List Char}
    (h : takeNumber width s = some (n, rest)) : foreignDigits rest = foreignDigits s := by
  simp only [takeNumber, Option.ite_none_left_eq_some, Option.some.injEq, Prod.mk.injEq] at h
  obtain ⟨-, -, rfl⟩ := h
  apply foreignDigits_drop
  have hpre : (s.take width).takeWhile Char.isDigit <+: s :=
    (List.takeWhile_prefix _).trans (List.take_prefix width s)
  rw [← List.prefix_iff_eq_take.mp hpre]
  exact fun c hc => isForeignDigit_of_isDigit (List.mem_takeWhile_imp hc)

theorem foreignDigits_takeNumberIn {lo hi width n : Nat} {s rest : List Char}
    (h : takeNumberIn lo hi width s = some (n, rest)) : foreignDigits rest = foreignDigits s := by
  simp only [takeNumberIn, Option.bind_eq_bind, Option.bind_eq_some_iff] at h
  obtain ⟨⟨m, u⟩, hm, h⟩ := h
  simp only [Option.ite_none_right_eq_some, Option.some.injEq, Prod.mk.injEq] at h
  obtain ⟨-, -, rfl⟩ := h
  rw [foreignDigits_takeNumber hm, foreignDigits_dropBlank]

theorem foreignDigits_takeFixedNumber {width n : Nat} {s rest : List Char}
    (h : takeFixedNumber width s = some (n, rest)) : foreignDigits rest = foreignDigits s := by
  simp only [takeFixedNumber, Option.ite_none_right_eq_some, Option.some.injEq,
    Prod.mk.injEq] at h
  obtain ⟨⟨-, hdigits⟩, -, rfl⟩ := h
  rw [List.all_eq_true] at hdigits
  exact foreignDigits_drop fun c hc => isForeignDigit_of_isDigit (hdigits c hc)

theorem foreignDigits_takeYear {y : Int} {s rest : List Char}
    (h : takeYear s = some (y, rest)) : foreignDigits rest = foreignDigits s := by
  -- A number is taken behind a sign, if there is one, and then checked.
  have hnumber : ∀ {width : Nat} {t : List Char} (sign : Nat → Int),
      (((takeNumber width t).map fun p => (sign p.1, p.2)).bind fun p =>
        if -yearBound ≤ p.1 ∧ p.1 < yearBound then some (p.1, p.2) else none) = some (y, rest) →
      foreignDigits rest = foreignDigits t := by
    intro width t sign h
    obtain ⟨_, hz, h⟩ := Option.bind_eq_some_iff.mp h
    obtain ⟨⟨n, u⟩, hn, rfl⟩ := Option.map_eq_some_iff.mp hz
    simp only [Option.ite_none_right_eq_some, Option.some.injEq, Prod.mk.injEq] at h
    obtain ⟨-, -, rfl⟩ := h
    exact foreignDigits_takeNumber hn
  have hsign : ∀ {c : Char} (t : List Char), c.toNat < 128 →
      foreignDigits (c :: t) = foreignDigits t := fun t hc =>
    foreignDigits_cons_of_not (isForeignDigit_of_lt hc) t
  rw [← foreignDigits_dropBlank s]
  unfold takeYear at h
  dsimp only at h
  split at h
  · next t ht =>
    rw [ht, hsign t (by decide)]
    exact hnumber (fun n => -(n : Int)) h
  · next t ht =>
    rw [ht, hsign t (by decide)]
    exact hnumber (fun n => (n : Int)) h
  · exact hnumber (fun n => (n : Int)) h

theorem foreignDigits_dropWord? {w s rest : List Char} (hw : ∀ c ∈ w, c.toNat < 128)
    (h : dropWord? w s = some rest) : foreignDigits rest = foreignDigits s := by
  induction w generalizing s with
  | nil =>
    cases h
    rfl
  | cons c w ih =>
    cases s with
    | nil => cases h
    | cons d s =>
      rw [List.forall_mem_cons] at hw
      simp only [dropWord?, Option.ite_none_right_eq_some] at h
      have hd := isForeignDigit_of_lt (toNat_lt_of_toLower_eq h.1 hw.1)
      rw [ih hw.2 h.2, foreignDigits_cons_of_not hd]

theorem foreignDigits_takeName {full : Bool} {names : List String} {n : Nat} {s rest : List Char}
    (hn : ∀ name ∈ names, ∀ c ∈ name.toList, c.toNat < 128)
    (h : takeName full names s = some (n, rest)) : foreignDigits rest = foreignDigits s := by
  induction names generalizing n with
  | nil => cases h
  | cons name names ih =>
    rw [List.forall_mem_cons] at hn
    have htake : ∀ c ∈ name.toList.take 3, c.toNat < 128 := fun c hc =>
      hn.1 c (List.mem_of_mem_take hc)
    have hdrop : ∀ c ∈ name.toList.drop 3, c.toNat < 128 := fun c hc =>
      hn.1 c (List.mem_of_mem_drop hc)
    rw [takeName] at h
    split at h
    · obtain ⟨⟨m, u⟩, hm, hu⟩ := Option.map_eq_some_iff.mp h
      cases hu
      exact ih hn.2 hm
    · next u hu =>
      rw [← foreignDigits_dropWord? htake hu]
      split at h
      · cases hd : dropWord? (name.toList.drop 3) u with
        | none =>
          rw [hd] at h
          cases h
          rfl
        | some v =>
          rw [hd] at h
          cases h
          exact foreignDigits_dropWord? hdrop hd
      · cases h
        rfl

theorem foreignDigits_takeMeridiem {b : Bool} {s rest : List Char}
    (h : takeMeridiem s = some (b, rest)) : foreignDigits rest = foreignDigits s := by
  unfold takeMeridiem at h
  split at h
  · next u hu =>
    cases h
    exact foreignDigits_dropWord? (by simp) hu
  · obtain ⟨u, hu, hv⟩ := Option.map_eq_some_iff.mp h
    cases hv
    exact foreignDigits_dropWord? (by simp) hu

theorem foreignDigits_takeSign {i : Int} {s rest : List Char}
    (h : takeSign s = some (i, rest)) : foreignDigits rest = foreignDigits s := by
  unfold takeSign at h
  split at h
  · cases h
    exact (foreignDigits_cons_of_not (isForeignDigit_of_lt (by decide)) _).symm
  · cases h
    exact (foreignDigits_cons_of_not (isForeignDigit_of_lt (by decide)) _).symm
  · cases h
    exact (foreignDigits_cons_of_not (by decide +kernel) _).symm
  · cases h

theorem foreignDigits_takeOffset {i : Int} {s rest : List Char}
    (h : takeOffset s = some (i, rest)) : foreignDigits rest = foreignDigits s := by
  obtain ⟨⟨sign, t⟩, hsign, h⟩ := Option.bind_eq_some_iff.mp h
  obtain ⟨⟨hours, u⟩, hhours, h⟩ := Option.bind_eq_some_iff.mp h
  obtain ⟨⟨minutes, v⟩, hminutes, h⟩ := Option.bind_eq_some_iff.mp h
  simp only [Option.ite_none_right_eq_some, Option.some.injEq, Prod.mk.injEq] at h
  obtain ⟨-, -, rfl⟩ := h
  have hgap : ∀ c : Char, (c == ':' || isBlank c) = true → isForeignDigit c = false := by
    intro c hc
    rcases Bool.or_eq_true_iff.mp hc with hc | hc
    · rw [eq_of_beq hc]
      exact isForeignDigit_of_lt (by decide)
    · exact isForeignDigit_of_isBlank hc
  rw [foreignDigits_takeFixedNumber hminutes, foreignDigits_dropWhile hgap,
    foreignDigits_takeFixedNumber hhours, foreignDigits_takeSign hsign, foreignDigits_dropBlank]

/-! ## Taking components and pieces -/

theorem Token.foreignDigits_take {t : Token} {p : Reading} {s rest : List Char}
    (h : t.take s = some (p, rest)) : foreignDigits rest = foreignDigits s := by
  have hweekdays : ∀ name ∈ Calendar.weekdayNames, ∀ c ∈ name.toList, c.toNat < 128 := by
    simp [Calendar.weekdayNames]
  have hmonths : ∀ name ∈ Calendar.monthNames, ∀ c ∈ name.toList, c.toNat < 128 := by
    simp [Calendar.monthNames]
  cases t <;> obtain ⟨⟨n, u⟩, hn, hu⟩ := Option.map_eq_some_iff.mp h <;> cases hu
  case year => exact foreignDigits_takeYear hn
  case meridiem => exact foreignDigits_takeMeridiem hn
  case weekday => exact foreignDigits_takeName hweekdays hn
  case monthName => exact foreignDigits_takeName hmonths hn
  case milliseconds => exact foreignDigits_takeFixedNumber hn
  case microseconds => exact foreignDigits_takeFixedNumber hn
  case offset => exact foreignDigits_takeOffset hn
  all_goals exact foreignDigits_takeNumberIn hn

theorem Token.foreignDigits_read {t : Token} {r r' : Reading} {s rest : List Char}
    (h : t.read r s = some (r', rest)) : foreignDigits rest = foreignDigits s := by
  rw [t.read_eq_merge] at h
  obtain ⟨⟨p, u⟩, hp, h⟩ := Option.bind_eq_some_iff.mp h
  obtain ⟨q, -, hq⟩ := Option.map_eq_some_iff.mp h
  cases hq
  exact Token.foreignDigits_take hp

/-- Whether a piece is a literal foreign digit. -/
def Piece.isForeignDigit : Piece → Bool
  | token _ => false
  | literal c => Text.isForeignDigit c

theorem Piece.foreignDigits_read {p : Piece} {r r' : Reading} {s rest : List Char}
    (h : p.read r s = some (r', rest)) :
    foreignDigits s = (if p.isForeignDigit then 1 else 0) + foreignDigits rest := by
  cases p with
  | token t => simp [isForeignDigit, Token.foreignDigits_read h]
  | literal c =>
    simp only [Piece.read] at h
    split at h
    · next hc =>
      cases h
      simp [isForeignDigit, isForeignDigit_of_isBlank hc, foreignDigits_dropBlank]
    · cases s with
      | nil => cases h
      | cons d s =>
        simp only [Option.ite_none_right_eq_some, Option.some.injEq, Prod.mk.injEq] at h
        obtain ⟨rfl, -, rfl⟩ := h
        rw [foreignDigits, List.countP_cons, Nat.add_comm]
        rfl

theorem Reading.foreignDigits_ofPieces {ps : List Piece} {r q : Reading} {s : List Char}
    (h : ofPieces ps r s = some q) : foreignDigits s = ps.countP Piece.isForeignDigit := by
  induction ps generalizing r s with
  | nil =>
    simp only [ofPieces, Option.ite_none_right_eq_some, List.isEmpty_iff] at h
    rw [h.1]
    rfl
  | cons p ps ih =>
    obtain ⟨⟨r', u⟩, hp, h⟩ := Option.bind_eq_some_iff.mp h
    rw [Piece.foreignDigits_read hp, ih h, List.countP_cons, Nat.add_comm]

end DatePattern

end FormCheck
