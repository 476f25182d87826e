import FormCheck.Proofs.DatePattern.Agreement

/-!
# What accepted values say is real

The check of the calendar waits for a year, a month and a day. A pattern that has all three accepts
days of the calendar only. Without one of them, what the texts of a value say is true of a day of
the calendar as well, except where two texts can never meet.

## Main definitions

* `AcceptsWithoutDay`: whether a pattern accepts a value with which no day agrees.

## Main results

* `exists_texts_of_accepts`: a time agrees with the texts of an accepted value, and a day just if
  one agrees with month and day, and one with year, day and weekday.
* `accepts_without_day`: there are patterns that do.
-/

namespace FormCheck.DatePattern

/-! ## The components of a day and a time -/

namespace Reading

variable {q : Reading}

theorem date_le_iff_keepsAt {d : Day} (c : TimeOfDay) :
    q.date ≤ d.reading ↔ ∀ k ∈ Component.ofDay, q.KeepsAt (d.at c) k := by
  rw [date_le_iff]
  simp [Component.ofDay, KeepsAt, Day.at, Day.reading]

theorem time_le_iff_keepsAt {c : TimeOfDay} (d : Day) :
    q.time ≤ c.reading ↔ ∀ k ∈ Component.ofTime, q.KeepsAt (d.at c) k := by
  rw [le_iff]
  simp [Component.ofTime, KeepsAt, Day.at, time, TimeOfDay.reading]

end Reading

theorem exists_keeps_timestamp (n : Option Nat) :
    ∃ (d : Day) (c : TimeOfDay), Keeps n (d.at c).timestamp := by
  obtain ⟨d, c, hn⟩ := exists_timestamp_eq (n.getD 0)
  exact ⟨d, c, Day.timestamp_at_eq_some_iff.mpr hn ▸ keeps_getD n 0⟩

/-! ## What an accepted value gives -/

section

variable {p : DatePattern} {value : String} {q : Reading}

/-- A pattern without a full date takes no year beside a month and a day. -/
theorem year_eq_none_of_not_hasDate (hq : p.read? value.toList = some q)
    (hd : p.hasDate = false) (hmonth : q.month.isSome = true) (hday : q.day.isSome = true) :
    q.year = none ∧ q.yearOfCentury = none := by
  have hhas := has_of_read?_iff hq
  have hno : ¬(Takes p.pieces .year ∨ Takes p.pieces .yearOfCentury) := by
    intro hyear
    have hdate := hasDate_iff_takes.mpr ⟨hyear, (hhas .month).mp hmonth, (hhas .day).mp hday⟩
    rw [hd] at hdate
    cases hdate
  rw [← hhas, ← hhas, not_or] at hno
  simpa [Reading.has] using hno

/-- What a consistent value gives for a full date is a day of the calendar. -/
theorem exists_day_of_hasDate (hq : p.read? value.toList = some q)
    (hcons : p.isConsistent q = true) (hd : p.hasDate = true) : ∃ d : Day, q.date ≤ d.reading := by
  rw [isConsistent, hd, Bool.and_eq_true] at hcons
  exact Reading.exists_day_of_isRealDate (inRange_of_read? hq) (by simpa using hcons.1)

theorem exists_day_iff (hq : p.read? value.toList = some q) (hcons : p.isConsistent q = true) :
    (∃ d : Day, q.date ≤ d.reading) ↔
      (∃ d : Day, Keeps q.month (some d.month) ∧ Keeps q.day (some d.day)) ∧
        ∃ d : Day, Keeps q.year (some d.year) ∧
          Keeps q.yearOfCentury (some (d.year % 100).toNat) ∧ Keeps q.day (some d.day) ∧
          Keeps q.weekday (some d.weekday) := by
  constructor
  · rintro ⟨d, hd⟩
    obtain ⟨hyear, hcentury, hmonth, hday, hweekday⟩ := Reading.date_le_iff.mp hd
    exact ⟨⟨d, hmonth, hday⟩, d, hyear, hcentury, hday, hweekday⟩
  · rintro ⟨⟨d, hmonth, hday⟩, d', hyear, hcentury, hday', hweekday⟩
    have hclash := Reading.not_clash_of_days hmonth hday hyear hcentury hday' hweekday
    cases hd : p.hasDate with
    | true => exact exists_day_of_hasDate hq hcons hd
    | false =>
      exact Reading.exists_day (inRange_of_read? hq) hclash (year_eq_none_of_not_hasDate hq hd)

/-- The texts of an accepted value say what is read. -/
theorem exists_taken_of_read? (hq : p.read? value.toList = some q) :
    ∃ xs, (∀ ys, ys.flatten = value.toList ∧ Taken p.pieces ys ↔ ys = xs) ∧
      ∀ cs, IsTimed cs → ∀ d c, AgreeOn cs d c p.pieces xs ↔ ∀ k ∈ cs, q.KeepsAt (d.at c) k := by
  obtain ⟨xs, hflat, htaken, hxs⟩ := exists_taken_of_ofPieces hq
  refine ⟨xs, fun ys => ⟨?_, ?_⟩, fun cs hcs d c => ?_⟩
  · rintro ⟨hys, htaken'⟩
    exact htaken'.eq_of_flatten_eq htaken (hys.trans hflat.symm)
  · rintro rfl
    exact ⟨hflat, htaken⟩
  · rw [hxs cs hcs d c, and_iff_right fun k _ => Reading.keepsAt_empty _ k]

theorem keepsAt_of_not_takes (hq : p.read? value.toList = some q) {k : Component} {z : Reading}
    (hk : ¬Takes p.pieces k) : q.KeepsAt z k := by
  rw [← has_of_read?_iff hq, Bool.not_eq_true] at hk
  exact Reading.keepsAt_of_not_has hk

/-- A day and a time have all that is read of both if a day has what is read of a day. -/
theorem exists_civil_iff (hq : p.read? value.toList = some q) :
    (∃ d c, ∀ k ∈ Component.civil, q.KeepsAt (Day.at d c) k) ↔ ∃ d : Day, q.date ≤ d.reading := by
  have hcivil : ∀ (d : Day) (c : TimeOfDay), (∀ k ∈ Component.civil, q.KeepsAt (d.at c) k) ↔
      q.date ≤ d.reading ∧ q.time ≤ c.reading := by
    intro d c
    rw [Component.civil, List.forall_mem_append, Reading.date_le_iff_keepsAt c,
      Reading.time_le_iff_keepsAt d]
  obtain ⟨c, hc⟩ := Reading.exists_time (inRange_of_read? hq)
  simp only [hcivil]
  constructor
  · rintro ⟨d, _, hd, -⟩
    exact ⟨d, hd⟩
  · rintro ⟨d, hd⟩
    exact ⟨d, c, hd, hc⟩

end

/-- An accepted value has one sequence of texts. A time of the day agrees with those of a time. A
day and a time agree with those of both if the pattern takes a year, a month and a day; without one
of the three, they do so just if a day agrees with the texts of month and day, and a day with those
of year, day and weekday. No other texts count unless there is a timestamp, and a timestamp alone is
that of a day and a time. -/
theorem exists_texts_of_accepts {p : DatePattern} {value : String} (h : p.accepts value = true) :
    ∃ xs, (∀ ys, ys.flatten = value.toList ∧ Taken p.pieces ys ↔ ys = xs) ∧
      (∃ c : TimeOfDay, ∀ d, AgreeOn Component.ofTime d c p.pieces xs) ∧
      ((Takes p.pieces .year ∨ Takes p.pieces .yearOfCentury) → Takes p.pieces .month →
        Takes p.pieces .day → ∃ d c, AgreeOn Component.civil d c p.pieces xs) ∧
      ((∃ d c, AgreeOn Component.civil d c p.pieces xs) ↔
        (∃ d c, AgreeOn [.month, .day] d c p.pieces xs) ∧
          ∃ d c, AgreeOn [.year, .yearOfCentury, .day, .weekday] d c p.pieces xs) ∧
      (¬Takes p.pieces .timestamp → ∀ d c, Agree d c p.pieces xs ↔
        AgreeOn Component.civil d c p.pieces xs) ∧
      ((∀ k ∈ Component.civil, ¬Takes p.pieces k) → ∃ d c, Agree d c p.pieces xs) := by
  obtain ⟨q, hq, hcons⟩ := exists_read?_of_accepts h
  obtain ⟨xs, hxs, hagree⟩ := exists_taken_of_read? hq
  have hcivil := hagree Component.civil ⟨List.subset_append_left .., by decide⟩
  have hall : ∀ d c, Agree d c p.pieces xs ↔
      AgreeOn Component.civil d c p.pieces xs ∧ q.KeepsAt (d.at c) .timestamp := by
    intro d c
    rw [agree_iff_agreeOn, hagree _ ⟨List.Subset.refl _, by decide⟩, hcivil, Component.timed,
      List.forall_mem_append, List.forall_mem_singleton]
  obtain ⟨c₀, hc₀⟩ := Reading.exists_time (inRange_of_read? hq)
  have hmonth : ∀ d c, AgreeOn [.month, .day] d c p.pieces xs ↔
      Keeps q.month (some d.month) ∧ Keeps q.day (some d.day) := by
    intro d c
    rw [hagree _ ⟨by decide, by decide⟩]
    simp [Reading.KeepsAt, Day.at, Day.reading]
  have hyear : ∀ d c, AgreeOn [.year, .yearOfCentury, .day, .weekday] d c p.pieces xs ↔
      Keeps q.year (some d.year) ∧ Keeps q.yearOfCentury (some (d.year % 100).toNat) ∧
        Keeps q.day (some d.day) ∧ Keeps q.weekday (some d.weekday) := by
    intro d c
    rw [hagree _ ⟨by decide, by decide⟩]
    simp [Reading.KeepsAt, Day.at, Day.reading]
  refine ⟨xs, hxs, ⟨c₀, fun d => ?_⟩, fun hy hm hd => ?_, ?_, fun ht d c => ?_, fun hnone => ?_⟩
  · rw [hagree _ ⟨by decide, by decide⟩]
    exact (Reading.time_le_iff_keepsAt d).mp hc₀
  · simp only [hcivil]
    rw [exists_civil_iff hq]
    exact exists_day_of_hasDate hq hcons (hasDate_iff_takes.mpr ⟨hy, hm, hd⟩)
  · have : Nonempty TimeOfDay := ⟨c₀⟩
    simp only [hcivil, hmonth, hyear, exists_const]
    rw [exists_civil_iff hq, exists_day_iff hq hcons]
  · rw [hall, and_iff_left (keepsAt_of_not_takes hq ht)]
  · obtain ⟨d, c, hdc⟩ := exists_keeps_timestamp q.timestamp
    refine ⟨d, c, (hall d c).mpr ⟨(hcivil d c).mpr fun k hk => ?_, hdc⟩⟩
    exact keepsAt_of_not_takes hq (hnone k hk)

/-- A full date, and an hour on the clock face. -/
theorem exists_texts_of_accepts_leap_day :
    ∃ p, compile "D j M y gA" = .ok p ∧ p.accepts "Sat 29 Feb 20 12PM" = true ∧
      ∃ d c, Agree d c p.pieces
        (["Sat", " ", "29", " ", "Feb", " ", "20", " ", "12", "PM"].map String.toList) := by
  let p : DatePattern := ⟨[.token (.weekday false), .literal ' ', .token (.day false),
    .literal ' ', .token (.monthName false), .literal ' ', .token .yearOfCentury, .literal ' ',
    .token (.clockHour false), .token .meridiem]⟩
  have haccepts : p.accepts "Sat 29 Feb 20 12PM" = true := by decide
  obtain ⟨xs, hxs, -, hday, -, hagree, -⟩ := exists_texts_of_accepts haccepts
  obtain rfl := (hxs (["Sat", " ", "29", " ", "Feb", " ", "20", " ", "12", "PM"].map
    String.toList)).mp ⟨rfl, by repeat' constructor⟩
  have hdate := hasDate_iff_takes.mp (by decide : p.hasDate = true)
  obtain ⟨d, c, hdc⟩ := hday hdate.1 hdate.2.1 hdate.2.2
  have ht : ¬Takes p.pieces .timestamp := by simp [Takes, p, Token.components]
  exact ⟨p, rfl, haccepts, d, c, (hagree ht d c).mpr hdc⟩

/-- Whether a pattern accepts a value that falls into texts with which no day and no time agree. -/
def AcceptsWithoutDay (pattern : String) (texts : List String) : Prop :=
  ∃ p, compile pattern = .ok p ∧ p.accepts (String.join texts) = true ∧
    Taken p.pieces (texts.map String.toList) ∧
    ¬∃ d c, Agree d c p.pieces (texts.map String.toList)

/-- No year has the 30th of February, no year is two years, in 2021 no month has a Thursday for its
31st, and no day of 2000 comes when the count of seconds starts. All of these are accepted. -/
theorem accepts_without_day :
    AcceptsWithoutDay "m-d" ["02", "-", "30"] ∧ AcceptsWithoutDay "Y y" ["2020", " ", "21"] ∧
      AcceptsWithoutDay "D d Y" ["Thu", " ", "31", " ", "2021"] ∧
      AcceptsWithoutDay "Y U" ["2000", " ", "0"] := by
  refine ⟨⟨_, rfl, by decide, by repeat' constructor, ?_⟩,
    ⟨_, rfl, by decide, by repeat' constructor, ?_⟩,
    ⟨_, rfl, by decide, by repeat' constructor, ?_⟩,
    ⟨_, rfl, by decide, by repeat' constructor, ?_⟩⟩
  · rintro ⟨d, c, _ | ⟨hm, _ | ⟨-, _ | ⟨hd, -⟩⟩⟩⟩
    have hm : 2 = d.month := hm _ rfl
    have hd : 30 = d.day := hd _ rfl
    have hreal := d.hasDate
    have hlen := Calendar.daysInMonth_le d.year 2
    have hleap : Calendar.daysInMonth 2000 2 = 29 := by decide
    simp only [Calendar.hasDate, Bool.and_eq_true, decide_eq_true_eq, ← hm, ← hd] at hreal
    omega
  · rintro ⟨d, c, _ | ⟨hy, _ | ⟨-, _ | ⟨hc, -⟩⟩⟩⟩
    have hy : 2020 = d.year := hy _ rfl
    have hc : 21 = d.year % 100 := hc _ rfl
    omega
  · rintro ⟨d, c, _ | ⟨hw, _ | ⟨-, _ | ⟨hd, _ | ⟨-, _ | ⟨hy, -⟩⟩⟩⟩⟩⟩
    have hw : Abbreviates Calendar.weekdayNames d.weekday "Thu".toList := hw _ rfl
    have hd : 31 = d.day := hd _ rfl
    have hy : 2021 = d.year := hy _ rfl
    have hthu : Abbreviates Calendar.weekdayNames 3 "Thu".toList := ⟨"Thursday", rfl, rfl⟩
    rw [abbreviable_weekdayNames.abbreviates_iff_eq hthu, Day.weekday, ← hd, ← hy] at hw
    have hreal := d.hasDate
    rw [← hd, ← hy] at hreal
    have hmonths : ∀ m ≤ 12, Calendar.hasDate 2021 m 31 = true →
        Calendar.weekday 2021 m 31 ≠ 3 := by decide
    exact hmonths d.month (Calendar.month_mem_of_hasDate hreal).2 hreal hw
  · rintro ⟨d, c, _ | ⟨hy, _ | ⟨-, _ | ⟨ht, -⟩⟩⟩⟩
    have hy : 2000 = d.year := hy _ rfl
    have ht : 0 = timestamp d c := ht _ rfl
    have hstart : Calendar.epochDay < Calendar.daysBeforeYear 2000 := by decide
    rw [timestamp, Calendar.dayNumber, ← hy] at ht
    omega

end FormCheck.DatePattern
