import FormCheck.Calendar
import FormCheck.Text.Digits
import FormCheck.Toml.Text

/-!
# TOML dates and times

A date and a time may be written together, and then an offset from universal time may follow.
Every function that takes a part of a text returns the rest.

## Main definitions

* `Toml.DateTime`: dates, times, and both together.
* `Toml.DateTime.parse?`: reads one of them.
* `Toml.DateTime.text`: writes it, in the same way however it was written before.
-/

namespace FormCheck.Toml

structure Date where
  year : Nat
  month : Nat
  day : Nat
deriving DecidableEq, Repr

/-- A time of the day, in which the second 60 is left for leap seconds. -/
structure Time where
  hour : Nat
  minute : Nat
  second : Nat := 0
  nanosecond : Nat := 0
deriving DecidableEq, Repr

/-- How far a clock is from universal time. -/
inductive Offset where
  /-- Not at all, which a letter says. -/
  | universal
  /-- By as many minutes, written as a time with a sign. -/
  | minutes (m : Int)
deriving DecidableEq, Repr

inductive DateTime where
  | date (d : Date)
  | time (t : Time)
  | moment (d : Date) (t : Time) (offset : Option Offset)
deriving DecidableEq, Repr

/-! ## Reading -/

/-- Takes a number of exactly `width` digits in a range. -/
def takeField (width lo hi : Nat) (s : List Char) : Option (Nat × List Char) :=
  let ds := s.take width
  let n := Text.ofDigits ds
  if ds.length = width ∧ ds.all Char.isDigit ∧ lo ≤ n ∧ n ≤ hi then some (n, s.drop width)
  else none

/-- Takes a date of the calendar. -/
def takeDate (s : List Char) : Option (Date × List Char) := do
  let (year, s) ← takeField 4 0 9999 s
  let s ← takeChar '-' s
  let (month, s) ← takeField 2 1 12 s
  let s ← takeChar '-' s
  let (day, s) ← takeField 2 1 (Calendar.daysInMonth year month) s
  return ({ year, month, day }, s)

/-- Whether a text is a date and nothing else. -/
def isDate (s : List Char) : Bool := (takeDate s).any (·.2.isEmpty)

/-- The billionths of a second that the digits of a fraction write; further digits are cut off. -/
def nanosecondsOf (ds : List Char) : Nat :=
  Text.ofDigits ((ds ++ List.replicate 9 '0').take 9)

/-- Takes the fraction of a second, if there is one. -/
def takeNanosecond : List Char → Option (Nat × List Char)
  | '.' :: s =>
    let ds := s.takeWhile Char.isDigit
    if ds.isEmpty then none else some (nanosecondsOf ds, s.dropWhile Char.isDigit)
  | s => some (0, s)

/-- Takes a time of the day; seconds may be left out. -/
def takeTime (s : List Char) : Option (Time × List Char) := do
  let (hour, s) ← takeField 2 0 23 s
  let s ← takeChar ':' s
  let (minute, s) ← takeField 2 0 59 s
  match s with
  | ':' :: s => do
    let (second, s) ← takeField 2 0 60 s
    let (nanosecond, s) ← takeNanosecond s
    return ({ hour, minute, second, nanosecond }, s)
  | s => return ({ hour, minute }, s)

/-- Takes an offset of hours and minutes, of which the sign has been taken. -/
def takeMinutes (s : List Char) : Option (Nat × List Char) := do
  let (hours, s) ← takeField 2 0 23 s
  let s ← takeChar ':' s
  let (minutes, s) ← takeField 2 0 59 s
  return (60 * hours + minutes, s)

/-- Takes an offset from universal time, if there is one. -/
def takeOffset : List Char → Option (Option Offset × List Char)
  | [] => some (none, [])
  | 'Z' :: s => some (some .universal, s)
  | 'z' :: s => some (some .universal, s)
  | '+' :: s => (takeMinutes s).map fun (m, rest) => (some (.minutes m), rest)
  | '-' :: s => (takeMinutes s).map fun (m, rest) => (some (.minutes (-m)), rest)
  | _ => none

/-- Whether the character may stand between a date and a time. -/
def isTimeMark (c : Char) : Bool := c == 'T' || c == 't' || c == ' '

namespace DateTime

def parse? (s : List Char) : Option DateTime :=
  match takeDate s with
  | some (d, []) => some (.date d)
  | some (d, c :: s) =>
    if isTimeMark c then do
      let (t, s) ← takeTime s
      let (offset, s) ← takeOffset s
      if s.isEmpty then some (.moment d t offset) else none
    else none
  | none => do
    let (t, s) ← takeTime s
    if s.isEmpty then some (.time t) else none

end DateTime

/-! ## Writing -/

def Date.chars (d : Date) : List Char :=
  Text.lastDigits 4 d.year ++ '-' :: Text.lastDigits 2 d.month ++ '-' :: Text.lastDigits 2 d.day

/-- The point and the digits of a fraction of a second, without zeros at the end. -/
def fractionChars (nanosecond : Nat) : List Char :=
  if nanosecond = 0 then []
  else '.' :: ((Text.lastDigits 9 nanosecond).reverse.dropWhile (· == '0')).reverse

def Time.chars (t : Time) : List Char :=
  Text.lastDigits 2 t.hour ++ ':' :: Text.lastDigits 2 t.minute ++
    ':' :: Text.lastDigits 2 t.second ++ fractionChars t.nanosecond

def Offset.chars : Offset → List Char
  | universal => ['Z']
  | minutes m =>
    (if m < 0 then '-' else '+') ::
      (Text.lastDigits 2 (m.natAbs / 60) ++ ':' :: Text.lastDigits 2 (m.natAbs % 60))

namespace DateTime

def chars : DateTime → List Char
  | date d => d.chars
  | time t => t.chars
  | moment d t offset => d.chars ++ 'T' :: t.chars ++ (offset.map Offset.chars).getD []

def text (t : DateTime) : String := String.ofList t.chars

end DateTime

end FormCheck.Toml
