import FormCheck.Proofs.Calendar
import FormCheck.Proofs.DatePattern.Components
import FormCheck.Proofs.DatePattern.Slices

/-!
# Readings and civil time

A day of the calendar and a time of the day have every component of a date and of a time. What the
reader takes is in range, so a time of the day always agrees with it. A day need not: the reader
compares components of one name only, and without a full date nothing else compares the others.

## Main definitions

* `Day`, `TimeOfDay`: days of the calendar and times of the day, with their readings.
* `Reading.date`, `Reading.time`: the components of a reading that a day and a time have.
* `Reading.InRange`: what every reading satisfies.
* `Reading.Clash`: the three ways in which no day agrees with a reading.

## Main results

* `inRange_of_read?`: what is read is in range.
* `Reading.exists_time`: a time of the day agrees with what is read.
* `Reading.not_clash_of_days`: where two days agree, one with month and day and one with year, day
  and weekday, nothing clashes.
* `Reading.exists_day`: where nothing clashes, one day agrees with all that is read.
-/

namespace FormCheck.DatePattern

open Text

/-! ## Days and times -/

/-- A day of the proleptic Gregorian calendar. -/
structure Day where
  year : Int
  month : Nat
  day : Nat
  hasDate : Calendar.hasDate year month day = true

/-- A time of the day. A minute may end with a leap second. -/
structure TimeOfDay where
  hour : Nat
  minute : Nat
  second : Nat
  nanosecond : Nat
  hour_lt : hour < 24
  minute_lt : minute < 60
  second_le : second ≤ 60
  nanosecond_lt : nanosecond < 1000000000

def Day.weekday (d : Day) : Nat := Calendar.weekday d.year d.month d.day

def Day.reading (d : Day) : Reading where
  year := some d.year
  yearOfCentury := some (d.year % 100).toNat
  month := some d.month
  day := some d.day
  weekday := some d.weekday

def TimeOfDay.reading (t : TimeOfDay) : Reading where
  afternoon := some (decide (12 ≤ t.hour))
  clockHour := some (t.hour % 12)
  minute := some t.minute
  second := some t.second
  nanosecond := some t.nanosecond

/-- The seconds from the start of 1970 to a time of a day. -/
def timestamp (d : Day) (t : TimeOfDay) : Int :=
  86400 * (Calendar.dayNumber d.year d.month d.day - Calendar.epochDay) +
    (3600 * t.hour + 60 * t.minute + t.second)

namespace Reading

/-- The components that a day has. -/
def date (q : Reading) : Reading where
  year := q.year
  yearOfCentury := q.yearOfCentury
  month := q.month
  day := q.day
  weekday := q.weekday

/-- The components that a time of the day has. -/
def time (q : Reading) : Reading where
  afternoon := q.afternoon
  clockHour := q.clockHour
  minute := q.minute
  second := q.second
  nanosecond := q.nanosecond

/-! ## Ranges -/

/-- Whether the components are in range, each by itself. -/
structure InRange (q : Reading) : Prop where
  yearOfCentury : ∀ n ∈ q.yearOfCentury, n < 100
  month : ∀ n ∈ q.month, 1 ≤ n ∧ n ≤ 12
  day : ∀ n ∈ q.day, 1 ≤ n ∧ n ≤ 31
  weekday : ∀ n ∈ q.weekday, n < 7
  clockHour : ∀ n ∈ q.clockHour, n < 12
  minute : ∀ n ∈ q.minute, n < 60
  second : ∀ n ∈ q.second, n ≤ 60
  nanosecond : ∀ n ∈ q.nanosecond, n < 1000000000

theorem inRange_empty : InRange {} := by constructor <;> simp

end Reading

theorem takeNumberIn_mem {lo hi width n : Nat} {s rest : List Char}
    (h : takeNumberIn lo hi width s = some (n, rest)) : lo ≤ n ∧ n ≤ hi := by
  obtain ⟨⟨m, rest'⟩, -, h⟩ := Option.bind_eq_some_iff.mp h
  rw [Option.ite_none_right_eq_some] at h
  obtain ⟨hm, heq⟩ := h
  cases heq
  exact hm

theorem takeFixedNumber_lt {width n : Nat} {s rest : List Char}
    (h : takeFixedNumber width s = some (n, rest)) : n < Decimal.tenPow width := by
  rw [takeFixedNumber] at h
  split at h
  · next hdigits =>
    cases h
    have hlt := ofDigits_lt_tenPow (List.all_eq_true.mp hdigits.2)
    rwa [hdigits.1] at hlt
  · cases h

theorem takeName_lt {full : Bool} {names : List String} {n : Nat} {s rest : List Char}
    (h : takeName full names s = some (n, rest)) : n < names.length := by
  induction names generalizing n with
  | nil => cases h
  | cons name names ih =>
    rw [takeName] at h
    split at h
    · obtain ⟨⟨m, rest'⟩, hm, heq⟩ := Option.map_eq_some_iff.mp h
      cases heq
      exact Nat.succ_lt_succ (ih hm)
    · split at h <;> cases h <;> exact Nat.succ_pos _

/-- What a token takes is in range. -/
theorem Token.inRange_of_take {t : Token} {s rest : List Char} {p : Reading}
    (h : t.take s = some (p, rest)) : p.InRange := by
  cases t with
  | day | month | yearOfCentury | hour | clockHour | minute | second | timestamp =>
    obtain ⟨a, ha, heq⟩ := Option.map_eq_some_iff.mp h
    cases heq
    have hmem := takeNumberIn_mem ha
    constructor <;> simp
    all_goals omega
  | milliseconds | microseconds =>
    obtain ⟨a, ha, heq⟩ := Option.map_eq_some_iff.mp h
    cases heq
    have hlt := takeFixedNumber_lt ha
    simp only [Decimal.tenPow, Nat.pow_eq, Nat.reducePow] at hlt
    constructor <;> simp
    omega
  | weekday =>
    obtain ⟨a, ha, heq⟩ := Option.map_eq_some_iff.mp h
    cases heq
    have hlt : a.1 < 7 := takeName_lt ha
    constructor <;> simp [hlt]
  | monthName =>
    obtain ⟨a, ha, heq⟩ := Option.map_eq_some_iff.mp h
    cases heq
    have hlt : a.1 < 12 := takeName_lt ha
    constructor <;> simp
    omega
  | year | meridiem | offset =>
    obtain ⟨a, ha, heq⟩ := Option.map_eq_some_iff.mp h
    cases heq
    constructor <;> simp

theorem forall_mem_join {α : Type} [DecidableEq α] {P : α → Prop} {a b c : Option α}
    (h : join a b = some c) (ha : ∀ x ∈ a, P x) (hb : ∀ x ∈ b, P x) : ∀ x ∈ c, P x := by
  cases b with
  | none =>
    cases h
    exact ha
  | some x =>
    obtain ⟨-, rfl⟩ := settle_eq_some_iff.mp h
    exact hb

theorem Reading.inRange_merge {r p q : Reading} (h : r.merge p = some q) (hr : r.InRange)
    (hp : p.InRange) : q.InRange := by
  have hj := merge_eq_some_iff.mp h
  exact {
    yearOfCentury := forall_mem_join hj.yearOfCentury hr.yearOfCentury hp.yearOfCentury
    month := forall_mem_join hj.month hr.month hp.month
    day := forall_mem_join hj.day hr.day hp.day
    weekday := forall_mem_join hj.weekday hr.weekday hp.weekday
    clockHour := forall_mem_join hj.clockHour hr.clockHour hp.clockHour
    minute := forall_mem_join hj.minute hr.minute hp.minute
    second := forall_mem_join hj.second hr.second hp.second
    nanosecond := forall_mem_join hj.nanosecond hr.nanosecond hp.nanosecond }

theorem Collects.inRange {ps : List Piece} {r q : Reading} (h : Collects r ps q)
    (hr : r.InRange) : q.InRange := by
  induction h with
  | nil => exact hr
  | literal _ ih => exact ih hr
  | token htake hmerge _ ih =>
    exact ih (Reading.inRange_merge hmerge hr (Token.inRange_of_take htake))

theorem inRange_of_read? {p : DatePattern} {s : List Char} {q : Reading}
    (h : p.read? s = some q) : q.InRange :=
  (collects_of_ofPieces h).inRange Reading.inRange_empty

/-! ## Times -/

theorem keeps_getD {α : Type} (a : Option α) (x : α) : Keeps a (some (a.getD x)) := by
  cases a <;> simp

theorem getD_of_forall_mem {α : Type} {P : α → Prop} {a : Option α} {x : α} (h : ∀ y ∈ a, P y)
    (hx : P x) : P (a.getD x) := by
  cases a with
  | none => exact hx
  | some y => exact h y rfl

namespace Reading

variable {q : Reading}

/-- Components of a time that are missing are those of midnight. -/
theorem exists_time (h : q.InRange) : ∃ t : TimeOfDay, q.time ≤ t.reading := by
  have hclock : q.clockHour.getD 0 < 12 := getD_of_forall_mem h.clockHour (by omega)
  let t : TimeOfDay := {
    hour := (if q.afternoon.getD false = true then 12 else 0) + q.clockHour.getD 0
    minute := q.minute.getD 0
    second := q.second.getD 0
    nanosecond := q.nanosecond.getD 0
    hour_lt := by split <;> omega
    minute_lt := getD_of_forall_mem h.minute (by omega)
    second_le := getD_of_forall_mem h.second (by omega)
    nanosecond_lt := getD_of_forall_mem h.nanosecond (by omega) }
  have hafternoon : decide (12 ≤ t.hour) = q.afternoon.getD false := by
    by_cases hb : q.afternoon.getD false = true
    · simp [t, hb]
    · simp [t, hb, hclock]
  have hhour : t.hour % 12 = q.clockHour.getD 0 := by
    dsimp only [t]
    split <;> omega
  refine ⟨t, le_iff.mpr ?_⟩
  rw [TimeOfDay.reading, hafternoon, hhour]
  simp [time, keeps_getD, t]

/-! ## Days -/

theorem date_le_iff {d : Day} : q.date ≤ d.reading ↔
    Keeps q.year (some d.year) ∧ Keeps q.yearOfCentury (some (d.year % 100).toNat) ∧
      Keeps q.month (some d.month) ∧ Keeps q.day (some d.day) ∧
      Keeps q.weekday (some d.weekday) := by
  rw [le_iff]
  simp [date, Day.reading]

/-- The ways in which components of a date can be impossible. -/
inductive Clash (q : Reading) : Prop where
  /-- The year ends with other digits than those given beside it. -/
  | years (y c) (hy : q.year = some y) (hc : q.yearOfCentury = some c) (h : y % 100 ≠ c)
  /-- The month has the day in no year. -/
  | length (m d) (hm : q.month = some m) (hd : q.day = some d)
      (h : ∀ y, Calendar.hasDate y m d = false)
  /-- No month of the year has the 31st on the weekday. -/
  | weekday (y w) (hy : q.year = some y) (hd : q.day = some 31) (hw : q.weekday = some w)
      (h : ∀ m, Calendar.hasDate y m 31 = true → Calendar.weekday y m 31 ≠ w)

/-- A day with the month and the day, and one with the day and the rest, leave nothing to
clash. -/
theorem not_clash_of_days {d d' : Day} (hmonth : Keeps q.month (some d.month))
    (hday : Keeps q.day (some d.day)) (hyear : Keeps q.year (some d'.year))
    (hcentury : Keeps q.yearOfCentury (some (d'.year % 100).toNat))
    (hday' : Keeps q.day (some d'.day)) (hweekday : Keeps q.weekday (some d'.weekday)) :
    ¬q.Clash := by
  rintro (⟨y, c, hy, hc, hne⟩ | ⟨m, k, hm, hd, hno⟩ | ⟨y, w, hy, hd, hw, hno⟩)
  · rw [hy, keeps_some_iff, Option.some_inj] at hyear
    rw [hc, keeps_some_iff, Option.some_inj] at hcentury
    omega
  · have hreal := d.hasDate
    rw [hm, keeps_some_iff, Option.some_inj] at hmonth
    rw [hd, keeps_some_iff, Option.some_inj] at hday
    rw [hmonth, hday, hno] at hreal
    cases hreal
  · have hreal := d'.hasDate
    rw [hy, keeps_some_iff, Option.some_inj] at hyear
    rw [hd, keeps_some_iff, Option.some_inj] at hday'
    rw [hw, keeps_some_iff, Option.some_inj, Day.weekday, hyear, hday'] at hweekday
    rw [hyear, hday'] at hreal
    exact hno d'.month hreal hweekday

/-- Years that differ in nothing but the century leave a year to choose. -/
theorem exists_year (h : q.InRange) (hclash : ¬q.Clash) :
    ∃ y : Int, Keeps q.year (some y) ∧ Keeps q.yearOfCentury (some (y % 100).toNat) := by
  cases hy : q.year with
  | some y =>
    refine ⟨y, by simp, fun c hc => ?_⟩
    by_cases hne : y % 100 = c
    · rw [hne, Int.toNat_natCast]
    · exact absurd (.years y c hy hc hne) hclash
  | none =>
    have hlt : q.yearOfCentury.getD 0 < 100 := getD_of_forall_mem h.yearOfCentury (by omega)
    refine ⟨q.yearOfCentury.getD 0, by simp, ?_⟩
    rw [Int.emod_eq_of_lt (by omega) (by omega), Int.toNat_natCast]
    exact keeps_getD _ _

theorem exists_day_of_day_none (h : q.InRange) (hclash : ¬q.Clash) (hd : q.day = none) :
    ∃ d : Day, q.date ≤ d.reading := by
  obtain ⟨y, hyear, hcentury⟩ := exists_year h hclash
  have hmonth : 1 ≤ q.month.getD 1 ∧ q.month.getD 1 ≤ 12 := getD_of_forall_mem h.month (by omega)
  have hweekday : q.weekday.getD 0 < 7 := getD_of_forall_mem h.weekday (by omega)
  obtain ⟨d, hreal, hw⟩ := Calendar.exists_day_weekday y hmonth hweekday
  refine ⟨⟨y, q.month.getD 1, d, hreal⟩, date_le_iff.mpr ⟨hyear, hcentury, keeps_getD _ _, ?_, ?_⟩⟩
  · simp [hd]
  · rw [Day.weekday, hw]
    exact keeps_getD _ _

theorem exists_day_of_year_none (h : q.InRange) (hclash : ¬q.Clash) {m d : Nat}
    (hm : q.month = some m) (hd : q.day = some d) (hy : q.year = none)
    (hc : q.yearOfCentury = none) : ∃ d : Day, q.date ≤ d.reading := by
  have hyear : ∃ y, Calendar.hasDate y m d = true := by
    by_contra hno
    refine hclash (.length m d hm hd fun y => ?_)
    exact Bool.eq_false_iff.mpr fun hy => hno ⟨y, hy⟩
  have hweekday : q.weekday.getD 0 < 7 := getD_of_forall_mem h.weekday (by omega)
  obtain ⟨y₀, hreal₀⟩ := hyear
  obtain ⟨y, hreal, hw⟩ := Calendar.exists_year_weekday hreal₀ hweekday
  refine ⟨⟨y, m, d, hreal⟩, date_le_iff.mpr ?_⟩
  rw [Day.weekday, hw, hm, hd, hy, hc]
  simp [keeps_getD]

/-- With the month free, a day up to the 30th has every weekday in each year. -/
theorem exists_day_of_month_none (h : q.InRange) (hclash : ¬q.Clash) {d : Nat}
    (hd : q.day = some d) (hm : q.month = none) : ∃ d : Day, q.date ≤ d.reading := by
  have hrange := h.day d hd
  cases hy : q.year with
  | none =>
    have hlt : q.yearOfCentury.getD 0 < 100 := getD_of_forall_mem h.yearOfCentury (by omega)
    have hweekday : q.weekday.getD 0 < 7 := getD_of_forall_mem h.weekday (by omega)
    obtain ⟨y, m, hcentury, hreal, hw⟩ := Calendar.exists_date_century hlt hrange hweekday
    refine ⟨⟨y, m, d, hreal⟩, date_le_iff.mpr ?_⟩
    rw [Day.weekday, hw, hcentury, Int.toNat_natCast, hy, hm, hd]
    simp [keeps_getD]
  | some y =>
    have hmonth : ∃ m, Calendar.hasDate y m d = true ∧
        Keeps q.weekday (some (Calendar.weekday y m d)) := by
      cases hw : q.weekday with
      | none => exact ⟨1, by simpa [Calendar.hasDate, Calendar.daysInMonth] using hrange, by simp⟩
      | some w =>
        simp only [keeps_some_iff, Option.some_inj]
        obtain ⟨m, hm, hlen⟩ := Calendar.exists_month_weekday y d (h.weekday w hw)
        by_cases hlast : d = 31
        · subst hlast
          by_contra hno
          exact hclash (.weekday y w hy hd hw fun m hm hw => hno ⟨m, hm, hw⟩)
        · refine ⟨m, ?_, hm⟩
          have hjune : Calendar.daysInMonth y 6 = 30 := rfl
          simp only [Calendar.hasDate, Bool.and_eq_true, decide_eq_true_eq]
          rcases hlen with hlen | rfl <;> omega
    obtain ⟨m, hreal, hweekday⟩ := hmonth
    obtain ⟨y', hyear, hcentury⟩ := exists_year h hclash
    obtain rfl : y' = y := by simpa [hy] using hyear
    refine ⟨⟨y', m, d, hreal⟩, date_le_iff.mpr ⟨hyear, hcentury, ?_, ?_, hweekday⟩⟩
    · simp [hm]
    · simp [hd]

/-- Without a full date, a day agrees with what is read unless there is a clash. -/
theorem exists_day (h : q.InRange) (hclash : ¬q.Clash)
    (hpart : q.month.isSome = true → q.day.isSome = true → q.year = none ∧ q.yearOfCentury = none) :
    ∃ d : Day, q.date ≤ d.reading := by
  cases hd : q.day with
  | none => exact exists_day_of_day_none h hclash hd
  | some d =>
    cases hm : q.month with
    | none => exact exists_day_of_month_none h hclash hd hm
    | some m =>
      obtain ⟨hy, hc⟩ := hpart (by rw [hm]; rfl) (by rw [hd]; rfl)
      exact exists_day_of_year_none h hclash hm hd hy hc

/-- The full year agrees with the year and with its last two digits. -/
theorem keeps_of_fullYear? (hq : q.InRange) {y : Int} (h : q.fullYear? = some y) :
    Keeps q.year (some y) ∧ Keeps q.yearOfCentury (some (y % 100).toNat) := by
  rw [fullYear?] at h
  split at h
  · next hy hc =>
    cases h
    simp [hy, hc]
  · next hy hc =>
    rw [Option.ite_none_right_eq_some] at h
    obtain ⟨⟨-, hmod⟩, heq⟩ := h
    cases heq
    simp [hy, hc, hmod]
  · next c hy hc =>
    have hlt := hq.yearOfCentury c hc
    have hmod : y % 100 = c := by
      cases h
      split <;> omega
    simp [hy, hc, hmod]
  · cases h

/-- A day that is found real is a day of the calendar. -/
theorem exists_day_of_isRealDate (hq : q.InRange) (h : q.isRealDate = true) :
    ∃ d : Day, q.date ≤ d.reading := by
  rw [isRealDate] at h
  split at h
  · next y m d hy hm hd =>
    simp only [Bool.and_eq_true, Option.all_eq_true, beq_iff_eq] at h
    obtain ⟨⟨-, hreal⟩, hw⟩ := h
    have hyears := keeps_of_fullYear? hq hy
    refine ⟨⟨y, m, d, hreal⟩, date_le_iff.mpr ⟨hyears.1, hyears.2, ?_, ?_, ?_⟩⟩
    · simp [hm]
    · simp [hd]
    · intro w hqw
      rw [Day.weekday, hw w hqw]
  · cases h

end Reading

/-! ## Timestamps -/

/-- Every timestamp is that of a time of some day. -/
theorem exists_timestamp_eq (n : Nat) : ∃ (d : Day) (t : TimeOfDay), timestamp d t = n := by
  obtain ⟨y, m, k, hreal, hnumber⟩ := Calendar.exists_dayNumber_eq (n / 86400)
  let t : TimeOfDay := {
    hour := n % 86400 / 3600
    minute := n % 3600 / 60
    second := n % 60
    nanosecond := 0
    hour_lt := by omega
    minute_lt := by omega
    second_le := by omega
    nanosecond_lt := by omega }
  refine ⟨⟨y, m, k, hreal⟩, t, ?_⟩
  rw [timestamp, hnumber]
  dsimp only [t]
  omega

end FormCheck.DatePattern
