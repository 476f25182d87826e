import FormCheck.Calendar
import FormCheck.DatePattern.Pattern
import FormCheck.Text.Blank
import FormCheck.Text.Digits

/-!
# Reading a value along a date pattern

The reader walks a pattern and a value from left to right, takes as much as each piece can take
and never goes back. A component that is read twice has to be the same both times.

## Main definitions

* `Reading`: the components read so far.
* `Token.read`: takes one component.
* `Reading.ofPieces`: takes a whole value.
* `Reading.isRealDate`, `Reading.isRealTime`: whether the components fit together.
-/

namespace FormCheck.DatePattern

/-- The components of a date and time that a value gives. -/
structure Reading where
  year : Option Int := none
  yearOfCentury : Option Nat := none
  month : Option Nat := none
  day : Option Nat := none
  /-- Counted from Monday, which is 0. -/
  weekday : Option Nat := none
  /-- Whether the hour is one of the second half of the day. -/
  afternoon : Option Bool := none
  /-- The hour on the clock face, where 12 is 0. -/
  clockHour : Option Nat := none
  minute : Option Nat := none
  second : Option Nat := none
  nanosecond : Option Nat := none
  /-- Seconds since the start of 1970. -/
  timestamp : Option Nat := none
  /-- Minutes ahead of universal time. -/
  offset : Option Int := none
deriving DecidableEq, Repr

/-! ## Taking numbers and names -/

/-- The greatest number that the reader takes: a number has 63 bits. -/
def maxNumber : Nat := 0x7fffffffffffffff

/-- Takes the ASCII digits that the text starts with, at most `width` and at least one. -/
def takeNumber (width : Nat) (s : List Char) : Option (Nat × List Char) :=
  let digits := (s.take width).takeWhile Char.isDigit
  if digits.isEmpty || maxNumber < Text.ofDigits digits then none
  else some (Text.ofDigits digits, s.drop digits.length)

/-- Takes a number after any number of blanks, and checks its range. -/
def takeNumberIn (lo hi width : Nat) (s : List Char) : Option (Nat × List Char) := do
  let (n, rest) ← takeNumber width (Text.dropBlank s)
  if lo ≤ n ∧ n ≤ hi then some (n, rest) else none

/-- Takes exactly `width` ASCII digits. -/
def takeFixedNumber (width : Nat) (s : List Char) : Option (Nat × List Char) :=
  let digits := s.take width
  if digits.length = width ∧ digits.all Char.isDigit then some (Text.ofDigits digits, s.drop width)
  else none

/-- The first year that the reader does not take; it takes as many years before the year 0. -/
def yearBound : Int := 0x80000000

/-- Takes a year: four digits, or any number of digits after a sign. -/
def takeYear (s : List Char) : Option (Int × List Char) := do
  let (y, rest) ← match Text.dropBlank s with
    | '-' :: s => (takeNumber s.length s).map fun (n, rest) => (-(n : Int), rest)
    | '+' :: s => (takeNumber s.length s).map fun (n, rest) => ((n : Int), rest)
    | s => (takeNumber 4 s).map fun (n, rest) => ((n : Int), rest)
  if -yearBound ≤ y ∧ y < yearBound then some (y, rest) else none

/-- The rest of `s` after `w`, where ASCII letters of either case are the same. -/
def dropWord? : List Char → List Char → Option (List Char)
  | [], s => some s
  | _ :: _, [] => none
  | c :: w, d :: s => if c.toLower = d.toLower then dropWord? w s else none

/-- Takes the first three letters of one of the names, and its other letters too if `full` is set
and the text goes on with them. The result is the place of the name in the list. -/
def takeName (full : Bool) : List String → List Char → Option (Nat × List Char)
  | [], _ => none
  | name :: names, s =>
    match dropWord? (name.toList.take 3) s with
    | none => (takeName full names s).map fun (n, rest) => (n + 1, rest)
    | some rest =>
      if full then some (0, (dropWord? (name.toList.drop 3) rest).getD rest) else some (0, rest)

/-- Takes `am` or `pm`, and tells whether it was the latter. -/
def takeMeridiem (s : List Char) : Option (Bool × List Char) :=
  match dropWord? ['a', 'm'] s with
  | some rest => some (false, rest)
  | none => (dropWord? ['p', 'm'] s).map fun rest => (true, rest)

/-- Takes the sign of an offset: a plus, a hyphen or a minus sign. -/
def takeSign : List Char → Option (Int × List Char)
  | '+' :: s => some (1, s)
  | '-' :: s => some (-1, s)
  | '\u2212' :: s => some (-1, s)
  | _ => none

/-- Takes an offset in hours and minutes after any number of blanks; colons and blanks between
the two are left out. -/
def takeOffset (s : List Char) : Option (Int × List Char) := do
  let (sign, s) ← takeSign (Text.dropBlank s)
  let (hours, s) ← takeFixedNumber 2 s
  let (minutes, s) ← takeFixedNumber 2 (s.dropWhile fun c => c == ':' || Text.isBlank c)
  if minutes ≤ 59 then some (sign * (60 * hours + minutes), s) else none

/-! ## Taking components -/

/-- Sets a component. One that is set already has to be the same. -/
def settle {α : Type} [DecidableEq α] (old : Option α) (new : α) : Option (Option α) :=
  match old with
  | none => some (some new)
  | some a => if a = new then some (some new) else none

/-- Takes one component and adds it to those read before. -/
def Token.read (t : Token) (r : Reading) (s : List Char) : Option (Reading × List Char) :=
  match t with
  | day _ => do
    let (n, s) ← takeNumberIn 1 31 2 s
    return ({ r with day := ← settle r.day n }, s)
  | month _ => do
    let (n, s) ← takeNumberIn 1 12 2 s
    return ({ r with month := ← settle r.month n }, s)
  | year => do
    let (y, s) ← takeYear s
    return ({ r with year := ← settle r.year y }, s)
  | yearOfCentury => do
    let (n, s) ← takeNumberIn 0 99 2 s
    return ({ r with yearOfCentury := ← settle r.yearOfCentury n }, s)
  | hour _ => do
    let (n, s) ← takeNumberIn 0 23 2 s
    return ({ r with
      afternoon := ← settle r.afternoon (12 ≤ n : Bool)
      clockHour := ← settle r.clockHour (n % 12) }, s)
  | clockHour _ => do
    let (n, s) ← takeNumberIn 1 12 2 s
    return ({ r with clockHour := ← settle r.clockHour (n % 12) }, s)
  | minute => do
    let (n, s) ← takeNumberIn 0 59 2 s
    return ({ r with minute := ← settle r.minute n }, s)
  | second => do
    let (n, s) ← takeNumberIn 0 60 2 s
    return ({ r with second := ← settle r.second n }, s)
  | meridiem => do
    let (b, s) ← takeMeridiem s
    return ({ r with afternoon := ← settle r.afternoon b }, s)
  | weekday full => do
    let (n, s) ← takeName full Calendar.weekdayNames s
    return ({ r with weekday := ← settle r.weekday n }, s)
  | monthName full => do
    let (n, s) ← takeName full Calendar.monthNames s
    return ({ r with month := ← settle r.month (n + 1) }, s)
  | timestamp => do
    let (n, s) ← takeNumberIn 0 maxNumber s.length s
    return ({ r with timestamp := ← settle r.timestamp n }, s)
  | milliseconds => do
    let (n, s) ← takeFixedNumber 3 s
    return ({ r with nanosecond := ← settle r.nanosecond (n * 1000000) }, s)
  | microseconds => do
    let (n, s) ← takeFixedNumber 6 s
    return ({ r with nanosecond := ← settle r.nanosecond (n * 1000) }, s)
  | offset _ => do
    let (n, s) ← takeOffset s
    return ({ r with offset := ← settle r.offset n }, s)

/-- Takes one piece. A blank in the pattern takes any number of blanks, none included; every other
literal takes itself. -/
def Piece.read (p : Piece) (r : Reading) (s : List Char) : Option (Reading × List Char) :=
  match p with
  | token t => t.read r s
  | literal c =>
    if Text.isBlank c then some (r, Text.dropBlank s)
    else match s with
      | [] => none
      | d :: s => if d = c then some (r, s) else none

/-- The components of a value that the pieces take as a whole. -/
def Reading.ofPieces : List Piece → Reading → List Char → Option Reading
  | [], r, s => if s.isEmpty then some r else none
  | p :: ps, r, s => do
    let (r, s) ← p.read r s
    Reading.ofPieces ps r s

/-! ## Components that fit together -/

namespace Reading

/-- The year. Two digits alone stand for 1970 to 2069; beside a full year they have to be its last
two, and that year may not be negative. -/
def fullYear? (r : Reading) : Option Int :=
  match r.year, r.yearOfCentury with
  | some y, none => some y
  | some y, some c => if 0 ≤ y ∧ y % 100 = c then some y else none
  | none, some c => some (if c < 70 then 2000 + c else 1900 + c)
  | none, none => none

/-- The years that the calendar is kept for. -/
def isKnownYear (year : Int) : Bool := -262143 ≤ year && year ≤ 262142

/-- Whether year, month and day name a day of the calendar, of the right weekday if one is
given. -/
def isRealDate (r : Reading) : Bool :=
  match r.fullYear?, r.month, r.day with
  | some year, some month, some day =>
    isKnownYear year && Calendar.hasDate year month day &&
      r.weekday.all (· == Calendar.weekday year month day)
  | _, _, _ => false

/-- Whether hour and minute name a time of the day. A fraction of a second needs its second. -/
def isRealTime (r : Reading) : Bool :=
  r.afternoon.isSome && r.clockHour.isSome && r.minute.isSome &&
    (r.nanosecond.isNone || r.second.isSome)

end Reading

end FormCheck.DatePattern
