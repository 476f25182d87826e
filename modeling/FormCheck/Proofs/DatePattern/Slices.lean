import FormCheck.Decimal.Power
import FormCheck.Proofs.DatePattern.ForeignDigits
import FormCheck.Proofs.Regex.Language
import Mathlib.Data.List.Induction
import Mathlib.Data.List.Nodup

/-!
# Slices of a value

A value that has the shape of a pattern falls into slices, one for each piece. A slice with ASCII
digits only is exactly what the reader takes, unless it is a number that the following digit would
make longer.

## Main definitions

* `IsNumber`: the numbers of a given width.
* `SameLetters`: words up to the case of ASCII letters.
* `Abbreviable`: lists of names that three letters tell apart.
* `Token.IsSlice`, `Piece.IsSlice`: the texts that have the shape of a token or a piece, with ASCII
  digits only.
* `Token.isBasic`: days, months, four-digit years, hours, minutes, seconds, halves of the day and
  short names.

## Main results

* `takeNumberIn_append`, `takeName_append`, `takeMeridiem_append`: what is taken from a slice.
* `Token.take_append`: a token takes its slice, whatever comes after it.
-/

namespace FormCheck

namespace Text

theorem ofDigits_lt_tenPow {s : List Char} (h : ∀ c ∈ s, c.isDigit = true) :
    ofDigits s < Decimal.tenPow s.length := by
  induction s using List.reverseRecOn with
  | nil => decide
  | append_singleton s c ih =>
    have hs := ih fun d hd => h d (List.mem_append_left _ hd)
    have hc := isDigit_iff.mp (h c (by simp))
    have hv : digitValue c ≤ 9 := by
      have : '0'.toNat = 48 := rfl
      unfold digitValue
      omega
    rw [ofDigits_append_singleton, List.length_append]
    have hpow : Decimal.tenPow (s.length + 1) = Decimal.tenPow s.length * 10 := rfl
    rw [List.length_singleton, hpow]
    omega

end Text

namespace DatePattern

open Text

/-! ## Numbers -/

/-- Whether `u` consists of at least `lo` and at most `hi` ASCII digits. -/
structure IsNumber (lo hi : Nat) (u : List Char) : Prop where
  lo_le : lo ≤ u.length
  le_hi : u.length ≤ hi
  isDigit : ∀ c ∈ u, c.isDigit = true

theorem IsNumber.ne_nil {lo hi : Nat} {u : List Char} (h : IsNumber lo hi u) (hlo : 1 ≤ lo) :
    u ≠ [] := List.ne_nil_of_length_pos (hlo.trans h.lo_le)

theorem IsNumber.length_eq {n : Nat} {u : List Char} (h : IsNumber n n u) : u.length = n :=
  Nat.le_antisymm h.le_hi h.lo_le

theorem IsNumber.ofDigits_lt {lo hi : Nat} {u : List Char} (h : IsNumber lo hi u) :
    ofDigits u < Decimal.tenPow hi := by
  have hpow : Decimal.tenPow u.length ≤ Decimal.tenPow hi :=
    Nat.pow_le_pow_right (by omega) h.le_hi
  exact Nat.lt_of_lt_of_le (ofDigits_lt_tenPow h.isDigit) hpow

/-- Whether a text that comes after a number leaves it as it is. -/
def EndsNumber (rest : List Char) : Prop := ∀ c ∈ rest.head?, c.isDigit = false

@[simp] theorem endsNumber_nil : EndsNumber [] := fun _ h => nomatch h

theorem takeWhile_isDigit_of_endsNumber {rest : List Char} (h : EndsNumber rest) :
    rest.takeWhile Char.isDigit = [] := by
  cases rest with
  | nil => rfl
  | cons c rest => exact List.takeWhile_cons_of_neg (by simp [h c rfl])

theorem endsNumber_take {rest : List Char} (h : EndsNumber rest) (n : Nat) :
    EndsNumber (rest.take n) := by
  cases n with
  | zero => simp
  | succ n =>
    cases rest with
    | nil => simp
    | cons c rest => exact h

/-- A number is taken as a whole if it is as long as it can be, or if no digit follows. The bound
on the width keeps it below the greatest number that the reader takes. -/
theorem takeNumber_append {lo width : Nat} {u rest : List Char} (hu : IsNumber lo width u)
    (hlo : 1 ≤ lo) (hwidth : width ≤ 18) (hrest : u.length = width ∨ EndsNumber rest) :
    takeNumber width (u ++ rest) = some (ofDigits u, rest) := by
  have htail : ((rest.take (width - u.length)).takeWhile Char.isDigit) = [] := by
    rcases hrest with h | h
    · simp [h]
    · exact takeWhile_isDigit_of_endsNumber (endsNumber_take h _)
  have hdigits : ((u ++ rest).take width).takeWhile Char.isDigit = u := by
    rw [List.take_append, List.take_of_length_le hu.le_hi,
      List.takeWhile_append_of_pos hu.isDigit, htail, List.append_nil]
  have hle : ofDigits u ≤ maxNumber := by
    have hlt := hu.ofDigits_lt
    have hmono : Decimal.tenPow width ≤ Decimal.tenPow 18 :=
      Nat.pow_le_pow_right (by omega) hwidth
    have hmax : Decimal.tenPow 18 ≤ maxNumber := by decide
    omega
  simp [takeNumber, hdigits, hu.ne_nil hlo, Nat.not_lt.mpr hle]

theorem isBlank_of_isDigit {c : Char} (h : c.isDigit = true) : isBlank c = false := by
  by_contra hb
  have := isDecimalDigit_of_isBlank (Bool.of_not_eq_false hb)
  rw [isDecimalDigit_of_isDigit h] at this
  cases this

theorem takeNumberIn_append {lo width a b : Nat} {u rest : List Char} (hu : IsNumber lo width u)
    (hlo : 1 ≤ lo) (hwidth : width ≤ 18) (hrest : u.length = width ∨ EndsNumber rest) :
    takeNumberIn a b width (u ++ rest) =
      if a ≤ ofDigits u ∧ ofDigits u ≤ b then some (ofDigits u, rest) else none := by
  have hblank : dropBlank (u ++ rest) = u ++ rest := by
    cases u with
    | nil => exact absurd (hlo.trans hu.lo_le) (by simp)
    | cons c u =>
      exact dropBlank_cons_of_not_blank (isBlank_of_isDigit (hu.isDigit c List.mem_cons_self))
  simp [takeNumberIn, hblank, takeNumber_append hu hlo hwidth hrest]

theorem takeYear_append {u : List Char} (hu : IsNumber 4 4 u) (rest : List Char) :
    takeYear (u ++ rest) = some ((ofDigits u : Int), rest) := by
  have hlen : u.length = 4 := Nat.le_antisymm hu.le_hi hu.lo_le
  have hnumber : takeNumber 4 (u ++ rest) = some (ofDigits u, rest) :=
    takeNumber_append hu (by omega) (by omega) (.inl hlen)
  have hlt : ofDigits u < 10000 := hu.ofDigits_lt
  obtain ⟨c, v, rfl⟩ := List.exists_cons_of_length_eq_add_one hlen
  have hc := hu.isDigit c List.mem_cons_self
  have hbound : -yearBound ≤ (ofDigits (c :: v) : Int) ∧ (ofDigits (c :: v) : Int) < yearBound := by
    unfold yearBound
    omega
  rw [List.cons_append] at hnumber ⊢
  rw [takeYear, dropBlank_cons_of_not_blank (isBlank_of_isDigit hc)]
  dsimp only
  split
  · next heq =>
    -- A sign is no digit.
    cases heq
    cases hc
  · next heq =>
    cases heq
    cases hc
  · refine Option.bind_eq_some_iff.mpr ⟨((ofDigits (c :: v) : Int), rest), ?_, ?_⟩
    · rw [hnumber, Option.map_some]
    · rw [Option.ite_none_right_eq_some]
      exact ⟨hbound, rfl⟩

/-! ## Names -/

/-- Whether two words are the same up to the case of their ASCII letters. -/
def SameLetters (w u : List Char) : Prop := w.map Char.toLower = u.map Char.toLower

instance (w u : List Char) : Decidable (SameLetters w u) :=
  inferInstanceAs (Decidable (w.map Char.toLower = u.map Char.toLower))

theorem sameLetters_cons {c d : Char} {w u : List Char} :
    SameLetters (c :: w) (d :: u) ↔ c.toLower = d.toLower ∧ SameLetters w u := by
  simp [SameLetters]

theorem SameLetters.length_eq {w u : List Char} (h : SameLetters w u) : w.length = u.length := by
  simpa using congrArg List.length h

theorem dropWord?_append {w u : List Char} (h : w.length = u.length) (rest : List Char) :
    dropWord? w (u ++ rest) = if SameLetters w u then some rest else none := by
  induction w generalizing u with
  | nil =>
    obtain rfl : u = [] := List.eq_nil_of_length_eq_zero h.symm
    rfl
  | cons c w ih =>
    obtain ⟨d, v, rfl⟩ := List.exists_cons_of_length_eq_add_one h.symm
    rw [List.cons_append, dropWord?, ih (by simpa using h)]
    by_cases hc : c.toLower = d.toLower <;> simp [sameLetters_cons, hc]

/-- The first three letters of a name. -/
def shortName (name : String) : List Char := name.toList.take 3

/-- Three letters are looked up among the short forms of the names. -/
theorem takeName_append {names : List String} {u : List Char}
    (hn : ∀ name ∈ names, (shortName name).length = 3) (hu : u.length = 3) (rest : List Char) :
    takeName false names (u ++ rest) =
      (names.findIdx? fun name => decide (SameLetters (shortName name) u)).map (·, rest) := by
  induction names with
  | nil => rfl
  | cons name names ih =>
    rw [List.forall_mem_cons] at hn
    have hword := dropWord?_append (hn.1.trans hu.symm) rest
    rw [shortName] at hword
    rw [takeName, hword, ih hn.2, List.findIdx?_cons]
    by_cases h : SameLetters (name.toList.take 3) u
    · simp [h, shortName]
    · simp [h, shortName, Function.comp_def]

theorem takeMeridiem_append {u : List Char} (hu : u.length = 2) (rest : List Char) :
    takeMeridiem (u ++ rest) =
      if SameLetters ['a', 'm'] u then some (false, rest)
      else if SameLetters ['p', 'm'] u then some (true, rest) else none := by
  rw [takeMeridiem, dropWord?_append (by simp [hu]), dropWord?_append (by simp [hu])]
  by_cases ha : SameLetters ['a', 'm'] u
  · simp [ha]
  · by_cases hp : SameLetters ['p', 'm'] u <;> simp [ha, hp]

/-! ## Slices -/

/-- Whether a text has the shape of a token, with ASCII digits only. -/
def Token.IsSlice (t : Token) (u : List Char) : Prop :=
  Regex.Matches t.shape u ∧ ∀ c ∈ u, isForeignDigit c = false

def Piece.IsSlice : Piece → List Char → Prop
  | token t, u => t.IsSlice u
  | literal c, u => u = [c]

/-- Days, months, four-digit years, hours, minutes, seconds, halves of the day and short names. -/
def Token.isBasic : Token → Bool
  | .day _ | .month _ | .year | .hour _ | .clockHour _ | .minute | .second | .meridiem => true
  | .weekday full | .monthName full => !full
  | _ => false

/-- Whether a token takes a number of one or two digits. -/
def Token.isUnpadded : Token → Bool
  | .day padded | .month padded | .hour padded | .clockHour padded => !padded
  | _ => false

theorem isDigit_of_not_isForeignDigit {c : Char} (hd : isDecimalDigit c = true)
    (hf : isForeignDigit c = false) : c.isDigit = true := by
  simpa [isForeignDigit, hd] using hf

theorem isSlice_times_digit_iff {n : Nat} {u : List Char} :
    (Regex.Matches (Token.digit.times n) u ∧ ∀ c ∈ u, isForeignDigit c = false) ↔
      IsNumber n n u := by
  rw [Token.digit, Regex.matches_times_char_iff]
  constructor
  · rintro ⟨⟨hlen, hd⟩, hf⟩
    refine ⟨hlen.ge, hlen.le, ?_⟩
    intro c hc
    exact isDigit_of_not_isForeignDigit (hd c hc) (hf c hc)
  · rintro ⟨hlo, hhi, hd⟩
    refine ⟨⟨Nat.le_antisymm hhi hlo, ?_⟩, ?_⟩
    · intro c hc
      exact isDecimalDigit_of_isDigit (hd c hc)
    · intro c hc
      exact isForeignDigit_of_isDigit (hd c hc)

theorem isSlice_numberShape_iff {padded : Bool} {u : List Char} :
    (Regex.Matches (Token.numberShape padded) u ∧ ∀ c ∈ u, isForeignDigit c = false) ↔
      IsNumber (if padded then 2 else 1) 2 u := by
  cases padded with
  | true => exact isSlice_times_digit_iff
  | false =>
    simp only [Token.numberShape, Token.digit, Regex.matches_seq_iff, Regex.matches_opt_iff,
      Regex.matches_char_iff, Bool.false_eq_true, if_false]
    constructor
    · rintro ⟨⟨_, v, ⟨c, hc, rfl⟩, hv, rfl⟩, hf⟩
      have hdc := isDigit_of_not_isForeignDigit hc (hf c (by simp))
      rcases hv with ⟨d, hd, rfl⟩ | rfl
      · have hdd := isDigit_of_not_isForeignDigit hd (hf d (by simp))
        exact ⟨by simp, by simp, by simp [hdc, hdd]⟩
      · exact ⟨by simp, by simp, by simp [hdc]⟩
    · rintro ⟨hlo, hhi, hd⟩
      refine ⟨?_, fun c hc => isForeignDigit_of_isDigit (hd c hc)⟩
      have hdec : ∀ c ∈ u, isDecimalDigit c = true := fun c hc =>
        isDecimalDigit_of_isDigit (hd c hc)
      match u, hlo, hhi with
      | [c], _, _ => exact ⟨[c], [], ⟨c, hdec c (by simp), rfl⟩, .inr rfl, rfl⟩
      | [c, d], _, _ =>
        exact ⟨[c], [d], ⟨c, hdec c (by simp), rfl⟩, .inl ⟨d, hdec d (by simp), rfl⟩, rfl⟩

theorem asciiLetter_contains_iff {c : Char} :
    CharClass.asciiLetter.contains c = true ↔
      65 ≤ c.toNat ∧ c.toNat ≤ 90 ∨ 97 ≤ c.toNat ∧ c.toNat ≤ 122 := by
  have hc : c.val.toNat = c.toNat := rfl
  simp [CharClass.contains, CharClass.asciiLetter, Char.le_def, UInt32.le_iff_toNat_le, hc]

theorem isSlice_nameShape_iff {u : List Char} :
    (Regex.Matches (Token.nameShape false) u ∧ ∀ c ∈ u, isForeignDigit c = false) ↔
      u.length = 3 ∧ ∀ c ∈ u, CharClass.asciiLetter.contains c = true := by
  rw [show Token.nameShape false = (Regex.char .asciiLetter).times 3 from rfl,
    Regex.matches_times_char_iff, and_iff_left_iff_imp]
  rintro ⟨-, hletter⟩ c hc
  have := asciiLetter_contains_iff.mp (hletter c hc)
  exact isForeignDigit_of_lt (by omega)

theorem isSlice_meridiem_iff {u : List Char} :
    Token.meridiem.IsSlice u ↔
      ∃ x ∈ ['a', 'A', 'p', 'P'], ∃ y ∈ ['m', 'M'], u = [x, y] := by
  simp only [Token.IsSlice, Token.shape, Regex.matches_seq_iff, Regex.matches_char_iff,
    CharClass.contains_oneOf]
  constructor
  · rintro ⟨⟨_, _, ⟨x, hx, rfl⟩, ⟨y, hy, rfl⟩, rfl⟩, -⟩
    exact ⟨x, hx, y, hy, rfl⟩
  · rintro ⟨x, hx, y, hy, rfl⟩
    refine ⟨⟨[x], [y], ⟨x, hx, rfl⟩, ⟨y, hy, rfl⟩, rfl⟩, ?_⟩
    have hascii : ∀ c ∈ ['a', 'A', 'p', 'P', 'm', 'M'], c.toNat < 128 := by simp
    intro c hc
    apply isForeignDigit_of_lt (hascii c _)
    simp only [List.mem_cons, List.not_mem_nil, or_false] at hx hy hc ⊢
    grind

/-! ## Taking a slice -/

/-- The number that a slice writes, if it is in range. -/
def numberIn? (lo hi : Nat) (u : List Char) : Option Nat :=
  if lo ≤ ofDigits u ∧ ofDigits u ≤ hi then some (ofDigits u) else none

/-- The place of the name that a slice abbreviates. -/
def namePlace? (names : List String) (u : List Char) : Option Nat :=
  names.findIdx? fun name => decide (SameLetters (shortName name) u)

/-- What a slice of a basic token says. -/
def Token.part? (t : Token) (u : List Char) : Option Reading :=
  match t with
  | .day _ => (numberIn? 1 31 u).map fun n => { day := some n }
  | .month _ => (numberIn? 1 12 u).map fun n => { month := some n }
  | .year => some { year := some (ofDigits u : Int) }
  | .hour _ =>
    (numberIn? 0 23 u).map fun n =>
      { afternoon := some (decide (12 ≤ n)), clockHour := some (n % 12) }
  | .clockHour _ => (numberIn? 1 12 u).map fun n => { clockHour := some (n % 12) }
  | .minute => (numberIn? 0 59 u).map fun n => { minute := some n }
  | .second => (numberIn? 0 60 u).map fun n => { second := some n }
  | .meridiem =>
    if SameLetters ['a', 'm'] u then some { afternoon := some false }
    else if SameLetters ['p', 'm'] u then some { afternoon := some true } else none
  | .weekday _ => (namePlace? Calendar.weekdayNames u).map fun n => { weekday := some n }
  | .monthName _ => (namePlace? Calendar.monthNames u).map fun n => { month := some (n + 1) }
  | _ => none

theorem takeNumberIn_slice {padded : Bool} {a b : Nat} {u rest : List Char}
    (hu : IsNumber (if padded then 2 else 1) 2 u) (hrest : padded = false → EndsNumber rest) :
    takeNumberIn a b 2 (u ++ rest) = (numberIn? a b u).map (·, rest) := by
  have hlong : u.length = 2 ∨ EndsNumber rest := by
    cases padded with
    | true => exact .inl (Nat.le_antisymm hu.le_hi hu.lo_le)
    | false => exact .inr (hrest rfl)
  rw [takeNumberIn_append hu (by split <;> omega) (by omega) hlong, numberIn?]
  split <;> rfl

/-- Whether the first three letters of the names are letters indeed, and tell the names apart. -/
structure Abbreviable (names : List String) : Prop where
  length : ∀ name ∈ names, (shortName name).length = 3
  letters : ∀ name ∈ names, ∀ c ∈ shortName name, CharClass.asciiLetter.contains c = true
  distinct : names.Pairwise fun a b => ¬SameLetters (shortName a) (shortName b)

theorem abbreviable_weekdayNames : Abbreviable Calendar.weekdayNames where
  length := by decide
  letters := by simp [Calendar.weekdayNames, shortName, asciiLetter_contains_iff]
  distinct := by decide

theorem abbreviable_monthNames : Abbreviable Calendar.monthNames where
  length := by decide
  letters := by simp [Calendar.monthNames, shortName, asciiLetter_contains_iff]
  distinct := by decide

theorem length_of_isSlice_meridiem {u : List Char} (h : Token.meridiem.IsSlice u) :
    u.length = 2 := by
  obtain ⟨x, -, y, -, rfl⟩ := isSlice_meridiem_iff.mp h
  rfl

/-- A basic token takes its slice and nothing else. -/
theorem Token.take_append {t : Token} {u rest : List Char} (hb : t.isBasic = true)
    (hu : t.IsSlice u) (hrest : t.isUnpadded = true → EndsNumber rest) :
    t.take (u ++ rest) = (t.part? u).map (·, rest) := by
  cases t with
  | day padded | month padded | hour padded | clockHour padded =>
    have hends : padded = false → EndsNumber rest := by simpa [isUnpadded] using hrest
    rw [take, part?, takeNumberIn_slice (isSlice_numberShape_iff.mp hu) hends]
    simp [Function.comp_def]
  | minute | second =>
    have hu : IsNumber (if true then 2 else 1) 2 u := isSlice_times_digit_iff.mp hu
    rw [take, part?, takeNumberIn_slice hu (by simp)]
    simp [Function.comp_def]
  | year =>
    rw [take, part?, takeYear_append (isSlice_times_digit_iff.mp hu)]
    rfl
  | meridiem =>
    rw [take, part?, takeMeridiem_append (length_of_isSlice_meridiem hu)]
    split
    · rfl
    · split <;> rfl
  | weekday full =>
    obtain rfl : full = false := by simpa [isBasic] using hb
    have hlen := (isSlice_nameShape_iff.mp hu).1
    have h := takeName_append abbreviable_weekdayNames.length hlen rest
    simp [take, part?, h, namePlace?, Function.comp_def]
  | monthName full =>
    obtain rfl : full = false := by simpa [isBasic] using hb
    have hlen := (isSlice_nameShape_iff.mp hu).1
    have h := takeName_append abbreviable_monthNames.length hlen rest
    simp [take, part?, h, namePlace?, Function.comp_def]
  | _ => cases hb

end DatePattern

end FormCheck
