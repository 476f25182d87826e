/-!
# The proleptic Gregorian calendar

## Main definitions

* `Calendar.isLeapYear`, `Calendar.daysInMonth`: the lengths of years and months.
* `Calendar.dayNumber`: days are numbered from 1 January of the year 1, which is day 1.
* `Calendar.weekday`: the day of the week, counted from Monday, which is 0.
* `Calendar.weekdayNames`, `Calendar.monthNames`: the English names.
-/

namespace FormCheck.Calendar

def isLeapYear (year : Int) : Bool :=
  year % 4 == 0 && (year % 100 != 0 || year % 400 == 0)

/-- The number of days of a month, January being 1; there is no day in a month that the year does
not have. -/
def daysInMonth (year : Int) (month : Nat) : Nat :=
  match month with
  | 1 | 3 | 5 | 7 | 8 | 10 | 12 => 31
  | 4 | 6 | 9 | 11 => 30
  | 2 => if isLeapYear year then 29 else 28
  | _ => 0

/-- Whether the calendar has the date. -/
def hasDate (year : Int) (month day : Nat) : Bool :=
  1 ≤ day && day ≤ daysInMonth year month

/-- The number of days of the year before the first of the month. -/
def daysBeforeMonth (year : Int) : Nat → Nat
  | 0 => 0
  | 1 => 0
  | month + 2 => daysBeforeMonth year (month + 1) + daysInMonth year (month + 1)

/-- The number of days from 1 January of the year 1 to 1 January of `year`. -/
def daysBeforeYear (year : Int) : Int :=
  let y := year - 1
  365 * y + y / 4 - y / 100 + y / 400

def dayNumber (year : Int) (month day : Nat) : Int :=
  daysBeforeYear year + daysBeforeMonth year month + day

/-- The day of the week, counted from Monday, which is 0. -/
def weekday (year : Int) (month day : Nat) : Nat :=
  ((dayNumber year month day - 1) % 7).toNat

theorem weekday_lt (year : Int) (month day : Nat) : weekday year month day < 7 := by
  have := Int.emod_lt_of_pos (dayNumber year month day - 1) (b := 7) (by decide)
  unfold weekday
  omega

/-- Day 1 is a Monday. -/
example : weekday 1 1 1 = 0 := by decide

/-- 17 September 2020 is a Thursday. -/
example : weekday 2020 9 17 = 3 := by decide

def weekdayNames : List String :=
  ["Monday", "Tuesday", "Wednesday", "Thursday", "Friday", "Saturday", "Sunday"]

def monthNames : List String :=
  ["January", "February", "March", "April", "May", "June", "July", "August", "September",
   "October", "November", "December"]

end FormCheck.Calendar
