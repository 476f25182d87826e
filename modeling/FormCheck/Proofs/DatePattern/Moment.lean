import FormCheck.Proofs.DatePattern.Alignment

/-!
# Slices that show a moment

A moment has every component of a date and time, each in its range. A slice of a basic token shows
a moment if it writes or names the moment's component.

## Main definitions

* `Moment`: the components, and `Moment.reading`: all of them as a reading.
* `Writes`, `Abbreviates`: numbers of one or two digits, and short names.
* `Token.Shows`, `Piece.Shows`: the slices of a token or a piece that show a moment.
* `Moment.complete`: a moment with the components of a reading.

## Main results

* `Token.shows_iff`: a slice shows a moment if what it says is a part of the moment's reading.
* `Token.part?_le_complete`: some moment has what the slices of a reading say.
-/

namespace FormCheck.DatePattern

open Text

/-! ## Moments -/

/-- The components of a date and time, which need not be a day of the calendar. -/
structure Moment where
  year : Int
  month : Nat
  day : Nat
  /-- Counted from Monday, which is 0. -/
  weekday : Nat
  hour : Nat
  minute : Nat
  second : Nat
  month_mem : 1 ≤ month ∧ month ≤ 12
  day_mem : 1 ≤ day ∧ day ≤ 31
  weekday_lt : weekday < 7
  hour_lt : hour < 24
  minute_lt : minute < 60
  /-- A minute may end with a leap second. -/
  second_le : second ≤ 60
deriving DecidableEq, Repr

namespace Moment

/-- Whether year, month and day are a day of the calendar, and the weekday is its weekday. -/
def IsReal (m : Moment) : Prop :=
  Calendar.hasDate m.year m.month m.day = true ∧
    m.weekday = Calendar.weekday m.year m.month m.day

def reading (m : Moment) : Reading where
  year := some m.year
  month := some m.month
  day := some m.day
  weekday := some m.weekday
  afternoon := some (decide (12 ≤ m.hour))
  clockHour := some (m.hour % 12)
  minute := some m.minute
  second := some m.second

end Moment

/-! ## Slices that show a moment -/

/-- Whether `u` is the number `n` in two ASCII digits, or in one or two without padding. -/
def Writes (padded : Bool) (n : Nat) (u : List Char) : Prop :=
  IsNumber (if padded then 2 else 1) 2 u ∧ ofDigits u = n

/-- Whether `u` is the first three letters of the name at place `i`. -/
def Abbreviates (names : List String) (i : Nat) (u : List Char) : Prop :=
  ∃ name, names[i]? = some name ∧ SameLetters (shortName name) u

namespace Token

/-- Whether a basic token may stand for `u` at a moment. -/
def Shows (m : Moment) (t : Token) (u : List Char) : Prop :=
  match t with
  | day padded => Writes padded m.day u
  | month padded => Writes padded m.month u
  | year => IsNumber 4 4 u ∧ (ofDigits u : Int) = m.year
  | hour padded => Writes padded m.hour u
  | clockHour padded => ∃ n, 1 ≤ n ∧ n ≤ 12 ∧ n % 12 = m.hour % 12 ∧ Writes padded n u
  | minute => Writes true m.minute u
  | second => Writes true m.second u
  | meridiem => SameLetters (if m.hour < 12 then ['a', 'm'] else ['p', 'm']) u
  | weekday false => Abbreviates Calendar.weekdayNames m.weekday u
  | monthName false => Abbreviates Calendar.monthNames (m.month - 1) u
  | _ => False

end Token

/-- Whether a piece may stand for `u` at a moment. A literal stands for itself. -/
def Piece.Shows (m : Moment) : Piece → List Char → Prop
  | token t, u => t.Shows m u
  | literal c, u => u = [c]

/-! ## Names and halves of the day -/

theorem asciiLetter_toLower_iff {c : Char} :
    CharClass.asciiLetter.contains c.toLower = CharClass.asciiLetter.contains c := by
  rw [Bool.eq_iff_iff, asciiLetter_contains_iff, asciiLetter_contains_iff, toNat_toLower]
  split <;> omega

theorem SameLetters.asciiLetter {w u : List Char} (h : SameLetters w u)
    (hw : ∀ c ∈ w, CharClass.asciiLetter.contains c = true) :
    ∀ c ∈ u, CharClass.asciiLetter.contains c = true := by
  intro c hc
  have hmem : c.toLower ∈ w.map Char.toLower := by
    rw [show w.map Char.toLower = u.map Char.toLower from h]
    exact List.mem_map_of_mem hc
  obtain ⟨d, hd, heq⟩ := List.mem_map.mp hmem
  rw [← asciiLetter_toLower_iff, ← heq, asciiLetter_toLower_iff]
  exact hw d hd

/-- A slice has the place of a name if and only if it abbreviates the name: no two names share
their first three letters. -/
theorem Abbreviable.abbreviates_iff {names : List String} (hn : Abbreviable names) {i : Nat}
    {u : List Char} :
    Abbreviates names i u ↔
      (Regex.Matches (Token.nameShape false) u ∧ ∀ c ∈ u, isForeignDigit c = false) ∧
        namePlace? names u = some i := by
  rw [isSlice_nameShape_iff, namePlace?, List.findIdx?_eq_some_iff_getElem]
  constructor
  · rintro ⟨name, hname, hu⟩
    have hmem := List.mem_of_getElem? hname
    obtain ⟨hi, rfl⟩ := List.getElem?_eq_some_iff.mp hname
    refine ⟨⟨?_, ?_⟩, hi, decide_eq_true hu, ?_⟩
    · rw [← hu.length_eq]
      exact hn.length _ hmem
    · exact hu.asciiLetter (hn.letters _ hmem)
    · intro j hji hj
      have hsame : SameLetters (shortName names[j]) u := of_decide_eq_true hj
      exact List.pairwise_iff_getElem.mp hn.distinct j i (by omega) hi hji (hsame.trans hu.symm)
  · rintro ⟨-, hi, hu, -⟩
    exact ⟨names[i], List.getElem?_eq_getElem hi, of_decide_eq_true hu⟩

/-- A letter has two cases. -/
theorem eq_of_toLower_eq {c l u : Char} (hu : 65 ≤ u.toNat ∧ u.toNat ≤ 90)
    (hl : l.toNat = u.toNat + 32) (h : l.toLower = c.toLower) : c = l ∨ c = u := by
  have h := congrArg Char.toNat h
  rw [toNat_toLower, toNat_toLower] at h
  rw [← Char.toNat_inj, ← Char.toNat_inj]
  split at h <;> split at h <;> omega

/-- Every spelling of a half of the day has its shape. -/
theorem isSlice_meridiem_of_sameLetters {c : Char} {u : List Char} (hc : c = 'a' ∨ c = 'p')
    (h : SameLetters [c, 'm'] u) : Token.meridiem.IsSlice u := by
  obtain ⟨x, y, rfl⟩ := List.length_eq_two.mp h.length_eq.symm
  obtain ⟨hx, hy⟩ := sameLetters_cons.mp h
  have hx : x ∈ ['a', 'A', 'p', 'P'] := by
    rcases hc with rfl | rfl
    · rcases eq_of_toLower_eq (u := 'A') (by decide) (by decide) hx with rfl | rfl <;> decide
    · rcases eq_of_toLower_eq (u := 'P') (by decide) (by decide) hx with rfl | rfl <;> decide
  have hy : y ∈ ['m', 'M'] := by
    have hy := (sameLetters_cons.mp hy).1
    rcases eq_of_toLower_eq (u := 'M') (by decide) (by decide) hy with rfl | rfl <;> decide
  exact isSlice_meridiem_iff.mpr ⟨x, hx, y, hy, rfl⟩

/-! ## What a slice says and what it shows -/

theorem exists_numberIn?_iff {a b : Nat} {u : List Char} {f : Nat → Reading} {z : Reading} :
    (∃ p, (numberIn? a b u).map f = some p ∧ p ≤ z) ↔
      (a ≤ ofDigits u ∧ ofDigits u ≤ b) ∧ f (ofDigits u) ≤ z := by
  unfold numberIn?
  split <;> simp [*]

theorem exists_map_iff {α : Type} {x : Option α} {f : α → Reading} {z : Reading} :
    (∃ p, x.map f = some p ∧ p ≤ z) ↔ ∃ a, x = some a ∧ f a ≤ z := by
  simp [Option.map_eq_some_iff]

theorem Moment.le_reading_iff {m : Moment} {r : Reading} : r ≤ m.reading ↔
    Keeps r.year (some m.year) ∧ Keeps r.yearOfCentury none ∧ Keeps r.month (some m.month) ∧
      Keeps r.day (some m.day) ∧ Keeps r.weekday (some m.weekday) ∧
      Keeps r.afternoon (some (decide (12 ≤ m.hour))) ∧ Keeps r.clockHour (some (m.hour % 12)) ∧
      Keeps r.minute (some m.minute) ∧ Keeps r.second (some m.second) ∧
      Keeps r.nanosecond none ∧ Keeps r.timestamp none ∧ Keeps r.offset none := Reading.le_iff

theorem exists_meridiem_iff {m : Moment} {u : List Char} :
    (∃ p, Token.meridiem.part? u = some p ∧ p ≤ m.reading) ↔
      SameLetters (if m.hour < 12 then ['a', 'm'] else ['p', 'm']) u := by
  have hdisj : SameLetters ['p', 'm'] u → ¬SameLetters ['a', 'm'] u := fun hp ha => by
    have hne : ¬SameLetters ['a', 'm'] ['p', 'm'] := by decide
    exact hne (ha.trans hp.symm)
  have hfalse : ({ afternoon := some false } : Reading) ≤ m.reading ↔ m.hour < 12 := by
    simp [Moment.le_reading_iff]
  have htrue : ({ afternoon := some true } : Reading) ≤ m.reading ↔ ¬m.hour < 12 := by
    simp [Moment.le_reading_iff]
  by_cases ha : SameLetters ['a', 'm'] u
  · have hp : ¬SameLetters ['p', 'm'] u := fun hp => hdisj hp ha
    by_cases hm : m.hour < 12 <;> simp [Token.part?, ha, hp, hfalse, hm]
  · by_cases hp : SameLetters ['p', 'm'] u <;> by_cases hm : m.hour < 12 <;>
      simp [Token.part?, ha, hp, htrue, hm]

/-- A slice shows a moment if it has the shape of the token and what it says is right. -/
theorem Token.shows_iff {m : Moment} {t : Token} {u : List Char} (hb : t.isBasic = true) :
    t.Shows m u ↔ t.IsSlice u ∧ ∃ p, t.part? u = some p ∧ p ≤ m.reading := by
  have hmonth := m.month_mem
  have hday := m.day_mem
  have hhour := m.hour_lt
  have hminute := m.minute_lt
  have hsecond := m.second_le
  cases t with
  | day padded | month padded | hour padded =>
    rw [Shows, Writes, IsSlice, shape, isSlice_numberShape_iff, part?, exists_numberIn?_iff,
      and_congr_right_iff]
    simp only [Moment.le_reading_iff, keeps_none, keeps_some_iff, Option.some_inj,
      decide_eq_decide, and_true, true_and]
    omega
  | clockHour padded =>
    rw [Shows, IsSlice, shape, isSlice_numberShape_iff, part?, exists_numberIn?_iff]
    simp only [Moment.le_reading_iff, keeps_none, keeps_some_iff, Option.some_inj, and_true,
      true_and, Writes]
    constructor
    · rintro ⟨n, hlo, hhi, hn, hu, rfl⟩
      exact ⟨hu, ⟨hlo, hhi⟩, hn.symm⟩
    · rintro ⟨hu, ⟨hlo, hhi⟩, hn⟩
      exact ⟨_, hlo, hhi, hn.symm, hu, rfl⟩
  | year =>
    rw [Shows, IsSlice, shape, isSlice_times_digit_iff, part?, and_congr_right_iff]
    simp [Moment.le_reading_iff, eq_comm]
  | minute | second =>
    rw [Shows, Writes, IsSlice, shape, isSlice_times_digit_iff, part?, exists_numberIn?_iff,
      if_pos rfl, and_congr_right_iff]
    simp only [Moment.le_reading_iff, keeps_none, keeps_some_iff, Option.some_inj, and_true,
      true_and]
    omega
  | meridiem =>
    rw [Shows, exists_meridiem_iff]
    refine ⟨fun h => ⟨?_, h⟩, And.right⟩
    split at h
    · exact isSlice_meridiem_of_sameLetters (.inl rfl) h
    · exact isSlice_meridiem_of_sameLetters (.inr rfl) h
  | weekday full =>
    obtain rfl : full = false := by simpa [isBasic] using hb
    rw [Shows, abbreviable_weekdayNames.abbreviates_iff, IsSlice, shape, part?, exists_map_iff,
      and_congr_right_iff]
    simp [Moment.le_reading_iff]
  | monthName full =>
    obtain rfl : full = false := by simpa [isBasic] using hb
    have hplace : ∀ i, m.month = i + 1 ↔ m.month - 1 = i := by omega
    rw [Shows, abbreviable_monthNames.abbreviates_iff, IsSlice, shape, part?, exists_map_iff,
      and_congr_right_iff]
    simp [Moment.le_reading_iff, hplace]
  | _ => cases hb

/-! ## Moments that complete a reading -/

/-- The number of a range that is nearest to `n`. -/
def clamp (lo hi n : Nat) : Nat := max lo (min hi n)

theorem clamp_mem {lo hi : Nat} (h : lo ≤ hi) (n : Nat) :
    lo ≤ clamp lo hi n ∧ clamp lo hi n ≤ hi := by
  unfold clamp
  omega

theorem clamp_of_mem {lo hi n : Nat} (h : lo ≤ n ∧ n ≤ hi) : clamp lo hi n = n := by
  unfold clamp
  omega

/-- A moment with the components of a reading, as far as they are in range. A missing weekday is
that of the day. -/
def Moment.complete (r : Reading) : Moment where
  year := r.year.getD 0
  month := clamp 1 12 (r.month.getD 1)
  day := clamp 1 31 (r.day.getD 1)
  weekday := clamp 0 6 (r.weekday.getD
    (Calendar.weekday (r.year.getD 0) (r.month.getD 1) (r.day.getD 1)))
  hour := (if r.afternoon = some true then 12 else 0) + clamp 0 11 (r.clockHour.getD 0)
  minute := clamp 0 59 (r.minute.getD 0)
  second := clamp 0 60 (r.second.getD 0)
  month_mem := clamp_mem (by omega) _
  day_mem := clamp_mem (by omega) _
  weekday_lt := Nat.lt_succ_of_le (clamp_mem (by omega) _).2
  hour_lt := by
    have := (clamp_mem (Nat.zero_le 11) (r.clockHour.getD 0)).2
    split <;> omega
  minute_lt := Nat.lt_succ_of_le (clamp_mem (by omega) _).2
  second_le := (clamp_mem (by omega) _).2

theorem Moment.complete_hour_mod {r : Reading} {n : Nat} (h : r.clockHour = some n) (hn : n < 12) :
    (complete r).hour % 12 = n := by
  have := clamp_of_mem (show 0 ≤ n ∧ n ≤ 11 by omega)
  simp only [complete, h, Option.getD_some, this]
  split <;> omega

theorem Moment.le_complete_hour_iff {r : Reading} {b : Bool} (h : r.afternoon = some b) :
    decide (12 ≤ (complete r).hour) = b := by
  have := (clamp_mem (Nat.zero_le 11) (r.clockHour.getD 0)).2
  cases b with
  | false =>
    simp [complete, h]
    omega
  | true => simp [complete, h]

theorem Moment.weekday_complete {r : Reading} {y : Int} {n d : Nat} (hy : r.year = some y)
    (hn : r.month = some n) (hd : r.day = some d) (hw : r.weekday = none) :
    (complete r).weekday = Calendar.weekday y n d := by
  have hlt := Calendar.weekday_lt y n d
  have := clamp_of_mem (show 0 ≤ Calendar.weekday y n d ∧ Calendar.weekday y n d ≤ 6 by omega)
  simp [complete, hy, hn, hd, hw, this]

theorem numberIn?_eq_some {a b n : Nat} {u : List Char} (h : numberIn? a b u = some n) :
    a ≤ n ∧ n ≤ b := by
  unfold numberIn? at h
  split at h
  · next hrange =>
    cases h
    exact hrange
  · cases h

theorem namePlace?_lt {names : List String} {i : Nat} {u : List Char}
    (h : namePlace? names u = some i) : i < names.length := by
  obtain ⟨hi, -⟩ := List.findIdx?_eq_some_iff_getElem.mp h
  exact hi

theorem Token.exists_of_meridiem_part? {u : List Char} {p : Reading}
    (h : Token.meridiem.part? u = some p) : ∃ b, p = { afternoon := some b } := by
  simp only [part?] at h
  split at h
  · cases h
    exact ⟨false, rfl⟩
  · rw [Option.ite_none_right_eq_some] at h
    cases h.2
    exact ⟨true, rfl⟩

/-- A slice says nothing that is out of range, so that a moment can have what it says. -/
theorem Token.part?_le_complete {t : Token} {u : List Char} {p q : Reading}
    (hp : t.part? u = some p) (hle : p ≤ q) : p ≤ (Moment.complete q).reading := by
  rw [Moment.le_reading_iff]
  rw [Reading.le_iff] at hle
  cases t with
  | day | month | minute | second =>
    obtain ⟨n, hn, rfl⟩ := Option.map_eq_some_iff.mp hp
    simp only [keeps_none, keeps_some_iff, and_true, true_and] at hle ⊢
    simp [Moment.complete, hle, clamp_of_mem (numberIn?_eq_some hn)]
  | hour =>
    obtain ⟨n, hn, rfl⟩ := Option.map_eq_some_iff.mp hp
    simp only [keeps_none, keeps_some_iff, and_true, true_and] at hle ⊢
    rw [Moment.le_complete_hour_iff hle.1, Moment.complete_hour_mod hle.2 (by omega)]
    exact ⟨rfl, rfl⟩
  | clockHour =>
    obtain ⟨n, hn, rfl⟩ := Option.map_eq_some_iff.mp hp
    simp only [keeps_none, keeps_some_iff, and_true, true_and] at hle ⊢
    rw [Moment.complete_hour_mod hle (by omega)]
  | year =>
    cases hp
    simp only [keeps_none, keeps_some_iff, and_true] at hle ⊢
    simp [Moment.complete, hle]
  | meridiem =>
    obtain ⟨b, rfl⟩ := exists_of_meridiem_part? hp
    simp only [keeps_none, keeps_some_iff, and_true, true_and] at hle ⊢
    rw [Moment.le_complete_hour_iff hle]
  | weekday full =>
    obtain ⟨n, hn, rfl⟩ := Option.map_eq_some_iff.mp hp
    have hrange : n < 7 := namePlace?_lt hn
    simp only [keeps_none, keeps_some_iff, and_true, true_and] at hle ⊢
    simp [Moment.complete, hle, clamp_of_mem (show 0 ≤ n ∧ n ≤ 6 by omega)]
  | monthName full =>
    obtain ⟨n, hn, rfl⟩ := Option.map_eq_some_iff.mp hp
    have hrange : n < 12 := namePlace?_lt hn
    simp only [keeps_none, keeps_some_iff, and_true, true_and] at hle ⊢
    simp [Moment.complete, hle, clamp_of_mem (show 1 ≤ n + 1 ∧ n + 1 ≤ 12 by omega)]
  | _ => cases hp

end FormCheck.DatePattern
