import FormCheck.Calendar
import Mathlib.Tactic.IntervalCases

/-!
# Days that the calendar has

## Main results

* `Calendar.exists_day_weekday`: every month starts with a week.
* `Calendar.exists_month_weekday`: in every year, the 30th is on each weekday in some month, and so
  is every day before it.
* `Calendar.exists_date_century`, `Calendar.exists_year_weekday`: a day is on each weekday in some
  year.
* `Calendar.exists_dayNumber_eq`: from 1970 on, every number is that of a day.
-/

namespace FormCheck.Calendar

/-! ## Months and weekdays -/

theorem daysInMonth_congr {y z : Int} (h : isLeapYear y = isLeapYear z) (month : Nat) :
    daysInMonth y month = daysInMonth z month := by
  unfold daysInMonth
  rw [h]

theorem daysBeforeMonth_congr {y z : Int} (h : isLeapYear y = isLeapYear z) (month : Nat) :
    daysBeforeMonth y month = daysBeforeMonth z month := by
  induction month with
  | zero => rfl
  | succ month ih =>
    cases month with
    | zero => rfl
    | succ month => rw [daysBeforeMonth, daysBeforeMonth, ih, daysInMonth_congr h]

/-- A month is never longer than in a leap year. -/
theorem daysInMonth_le (year : Int) (month : Nat) :
    daysInMonth year month ≤ daysInMonth 2000 month := by
  have hleap : isLeapYear 2000 = true := by decide
  unfold daysInMonth
  split <;> simp [hleap]
  split <;> simp

theorem month_mem_of_hasDate {year : Int} {month day : Nat} (h : hasDate year month day = true) :
    1 ≤ month ∧ month ≤ 12 := by
  simp only [hasDate, Bool.and_eq_true, decide_eq_true_eq] at h
  by_contra hout
  have hzero : daysInMonth year month = 0 := by
    unfold daysInMonth
    split <;> first | rfl | omega
  omega

theorem day_mem_of_hasDate {year : Int} {month day : Nat} (h : hasDate year month day = true) :
    1 ≤ day ∧ day ≤ 31 := by
  simp only [hasDate, Bool.and_eq_true, decide_eq_true_eq] at h
  refine ⟨h.1, h.2.trans ?_⟩
  unfold daysInMonth
  split <;> first | omega | (split <;> omega)

theorem weekday_eq_iff {year : Int} {month day w : Nat} :
    weekday year month day = w ↔ (dayNumber year month day - 1) % 7 = w := by
  unfold weekday
  omega

theorem seven_le_daysInMonth (year : Int) {month : Nat} (h : 1 ≤ month ∧ month ≤ 12) :
    7 ≤ daysInMonth year month := by
  obtain ⟨hlo, hhi⟩ := h
  unfold daysInMonth
  interval_cases month <;> simp
  split <;> simp

theorem exists_day_weekday (year : Int) {month w : Nat} (hm : 1 ≤ month ∧ month ≤ 12)
    (hw : w < 7) : ∃ day, hasDate year month day = true ∧ weekday year month day = w := by
  have hlen := seven_le_daysInMonth year hm
  refine ⟨1 + ((w : Int) - (dayNumber year month 1 - 1)) % 7 |>.toNat, ?_, ?_⟩
  · simp only [hasDate, Bool.and_eq_true, decide_eq_true_eq]
    omega
  · rw [weekday_eq_iff]
    unfold dayNumber
    omega

/-- Counted from 1 January, a month of 31 days, or else June, starts on any given day of a week. -/
theorem exists_month_offset (year : Int) {r : Nat} (hr : r < 7) :
    ∃ month, daysBeforeMonth year month % 7 = r ∧
      (daysInMonth year month = 31 ∨ month = 6) := by
  -- Only the kind of the year matters, so one year of each kind is searched.
  have hkinds : ∀ y ∈ [(2000 : Int), 2001], ∀ r < 7, ∃ month < 13,
      daysBeforeMonth y month % 7 = r ∧ (daysInMonth y month = 31 ∨ month = 6) := by decide
  have hkind : ∃ y ∈ [(2000 : Int), 2001], isLeapYear year = isLeapYear y := by
    cases isLeapYear year with
    | true => exact ⟨2000, by decide, by decide⟩
    | false => exact ⟨2001, by decide, by decide⟩
  obtain ⟨y, hy, hleap⟩ := hkind
  obtain ⟨month, -, h⟩ := hkinds y hy r hr
  rw [← daysBeforeMonth_congr hleap, ← daysInMonth_congr hleap] at h
  exact ⟨month, h⟩

theorem exists_month_weekday (year : Int) (day : Nat) {w : Nat} (hw : w < 7) :
    ∃ month, weekday year month day = w ∧ (daysInMonth year month = 31 ∨ month = 6) := by
  let offset := ((w : Int) - (daysBeforeYear year + day - 1)) % 7
  obtain ⟨month, hoffset, hlen⟩ := exists_month_offset year (r := offset.toNat) (by omega)
  refine ⟨month, ?_, hlen⟩
  rw [weekday_eq_iff, dayNumber]
  omega

/-! ## Years and weekdays -/

theorem isLeapYear_iff {year : Int} :
    isLeapYear year = true ↔ year % 4 = 0 ∧ (year % 100 ≠ 0 ∨ year % 400 = 0) := by
  simp [isLeapYear]

/-- A century shifts the weekdays. -/
theorem weekday_june_add_hundred (year : Int) (day : Nat) :
    weekday (year + 100) 6 day ≠ weekday year 6 day := by
  have hjune : ∀ y, daysBeforeMonth y 6 = if isLeapYear y = true then 152 else 151 := by
    intro y
    simp only [daysBeforeMonth, daysInMonth]
    split <;> rfl
  intro h
  rw [weekday_eq_iff] at h
  unfold weekday dayNumber at h
  rw [hjune, hjune] at h
  simp only [daysBeforeYear, isLeapYear_iff] at h
  split at h <;> split at h <;> omega

/-- In the years with the same last two digits, a day of the month is on every weekday. -/
theorem exists_date_century {c day w : Nat} (hc : c < 100) (hd : 1 ≤ day ∧ day ≤ 31)
    (hw : w < 7) :
    ∃ year month, year % 100 = (c : Int) ∧ hasDate year month day = true ∧
      weekday year month day = w := by
  obtain ⟨month, hmonth, hlen⟩ := exists_month_weekday (2000 + c) day hw
  obtain ⟨later, hlater, hlen'⟩ := exists_month_weekday (2000 + c + 100) day hw
  rcases hlen with hlen | rfl
  · exact ⟨2000 + c, month, by omega, by simp [hasDate, hlen, hd], hmonth⟩
  rcases hlen' with hlen' | rfl
  · exact ⟨2000 + c + 100, later, by omega, by simp [hasDate, hlen', hd], hlater⟩
  · exact absurd (hlater.trans hmonth.symm) (weekday_june_add_hundred (2000 + c) day)

/-- A day of some year is on every weekday in leap years, which shift it by five days each. -/
theorem exists_year_weekday {year : Int} {month day w : Nat} (h : hasDate year month day = true)
    (hw : w < 7) : ∃ y, hasDate y month day = true ∧ weekday y month day = w := by
  have hfive : ∃ k : Nat, k < 7 ∧ (weekday 2000 month day + 5 * k) % 7 = w :=
    ⟨(3 * (w + 7 - weekday 2000 month day)) % 7, by omega,
      by have := weekday_lt 2000 month day; omega⟩
  obtain ⟨k, hk, hweekday⟩ := hfive
  have hleap : isLeapYear (2000 + 4 * k) = isLeapYear 2000 := by
    rw [Bool.eq_iff_iff, isLeapYear_iff, isLeapYear_iff]
    omega
  refine ⟨2000 + 4 * k, ?_, ?_⟩
  · have hle := daysInMonth_le year month
    simp only [hasDate, Bool.and_eq_true, decide_eq_true_eq, daysInMonth_congr hleap] at h ⊢
    omega
  · have hdays : dayNumber (2000 + 4 * k) month day = dayNumber 2000 month day + 1461 * k := by
      rw [dayNumber, dayNumber, daysBeforeMonth_congr hleap]
      simp only [daysBeforeYear]
      omega
    rw [weekday_eq_iff, hdays]
    unfold weekday at hweekday
    omega

/-! ## Counting days -/

theorem daysBeforeYear_succ (year : Int) :
    daysBeforeYear (year + 1) =
      daysBeforeYear year + if isLeapYear year = true then 366 else 365 := by
  simp only [daysBeforeYear, isLeapYear_iff]
  split <;> omega

theorem daysBeforeMonth_twelve (year : Int) :
    daysBeforeMonth year 12 = if isLeapYear year = true then 335 else 334 := by
  simp only [daysBeforeMonth, daysInMonth]
  split <;> rfl

/-- Every day has a next day. -/
theorem exists_next {year : Int} {month day : Nat} (h : hasDate year month day = true) :
    ∃ y m d, hasDate y m d = true ∧ dayNumber y m d = dayNumber year month day + 1 := by
  obtain ⟨hlo, hhi⟩ := month_mem_of_hasDate h
  simp only [hasDate, Bool.and_eq_true, decide_eq_true_eq] at h
  rcases Nat.lt_or_eq_of_le h.2 with hday | hday
  · refine ⟨year, month, day + 1, ?_, ?_⟩
    · simp only [hasDate, Bool.and_eq_true, decide_eq_true_eq]
      omega
    · simp only [dayNumber]
      omega
  rcases Nat.lt_or_eq_of_le hhi with hmonth | rfl
  · obtain ⟨m, rfl⟩ := Nat.exists_eq_add_one.mpr hlo
    have hnext : 1 ≤ m + 1 + 1 ∧ m + 1 + 1 ≤ 12 := ⟨by omega, by omega⟩
    have hlen := seven_le_daysInMonth year hnext
    refine ⟨year, m + 1 + 1, 1, ?_, ?_⟩
    · simp only [hasDate, Bool.and_eq_true, decide_eq_true_eq]
      omega
    · simp only [dayNumber, daysBeforeMonth]
      omega
  · have hlast : daysInMonth year 12 = 31 := rfl
    refine ⟨year + 1, 1, 1, rfl, ?_⟩
    have hjanuary : daysBeforeMonth (year + 1) 1 = 0 := rfl
    rw [dayNumber, dayNumber, daysBeforeYear_succ, daysBeforeMonth_twelve, hjanuary]
    split <;> omega

/-- The number of 1 January 1970. -/
def epochDay : Int := dayNumber 1970 1 1

theorem exists_dayNumber_eq (n : Nat) :
    ∃ year month day, hasDate year month day = true ∧ dayNumber year month day = epochDay + n := by
  induction n with
  | zero => exact ⟨1970, 1, 1, rfl, rfl⟩
  | succ n ih =>
    obtain ⟨year, month, day, h, hn⟩ := ih
    obtain ⟨y, m, d, hnext, heq⟩ := exists_next h
    refine ⟨y, m, d, hnext, ?_⟩
    omega

end FormCheck.Calendar
