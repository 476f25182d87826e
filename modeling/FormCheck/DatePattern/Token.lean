import FormCheck.Regex

/-!
# Date pattern tokens

A date pattern is written with one letter for each component of a date and time. A token has two
notations besides its letter: a conversion, which tells the reader of values what to take, and a
shape, which fixes how many characters the component occupies.

## Main definitions

* `Token`: the components, with the width or spelling that the letter asks for.
* `Token.ofLetter?`: the letters.
* `Token.conversion`: the conversion, written with a percent sign.
* `Token.shape`, `Token.shapeText`: the shape as a regular expression and as its written form.
-/

namespace FormCheck.DatePattern

/-- A component of a date and time. Numbers may be padded with zeros to two digits, names may be
written in full. -/
inductive Token where
  | day (padded : Bool)
  | month (padded : Bool)
  | year
  | yearOfCentury
  | hour (padded : Bool)
  | clockHour (padded : Bool)
  | minute
  | second
  | meridiem
  | weekday (full : Bool)
  | monthName (full : Bool)
  | timestamp
  | milliseconds
  | microseconds
  | offset (colon : Bool)
deriving DecidableEq, Repr

namespace Token

def ofLetter? : Char → Option Token
  | 'd' => some (day true)
  | 'j' => some (day false)
  | 'm' => some (month true)
  | 'n' => some (month false)
  | 'Y' => some year
  | 'y' => some yearOfCentury
  | 'H' => some (hour true)
  | 'G' => some (hour false)
  | 'h' => some (clockHour true)
  | 'g' => some (clockHour false)
  | 'i' => some minute
  | 's' => some second
  | 'A' => some meridiem
  | 'a' => some meridiem
  | 'D' => some (weekday false)
  | 'l' => some (weekday true)
  | 'M' => some (monthName false)
  | 'F' => some (monthName true)
  | 'U' => some timestamp
  | 'v' => some milliseconds
  | 'u' => some microseconds
  | 'O' => some (offset false)
  | 'P' => some (offset true)
  | _ => none

/-- The conversion does not tell padded numbers from plain ones: the reader takes both. -/
def conversion : Token → String
  | day _ => "%d"
  | month _ => "%m"
  | year => "%Y"
  | yearOfCentury => "%y"
  | hour _ => "%H"
  | clockHour _ => "%I"
  | minute => "%M"
  | second => "%S"
  | meridiem => "%p"
  | weekday false => "%a"
  | weekday true => "%A"
  | monthName false => "%b"
  | monthName true => "%B"
  | timestamp => "%s"
  | milliseconds => "%3f"
  | microseconds => "%6f"
  | offset false => "%z"
  | offset true => "%:z"

/-! ## Shapes -/

def digit : Regex := .char .decimalDigit

def letter : Regex := .char .asciiLetter

def sign : Regex := .char (.oneOf ['+', '-'])

/-- Two digits, or one or two where the number is not padded. -/
def numberShape (padded : Bool) : Regex :=
  if padded then digit.times 2 else .seq digit digit.opt

/-- Three letters, or any number of them where the name is written in full. -/
def nameShape (full : Bool) : Regex :=
  if full then letter.plus else letter.times 3

def shape : Token → Regex
  | day padded => numberShape padded
  | month padded => numberShape padded
  | year => digit.times 4
  | yearOfCentury => digit.times 2
  | hour padded => numberShape padded
  | clockHour padded => numberShape padded
  | minute => digit.times 2
  | second => digit.times 2
  | meridiem => .seq (.char (.oneOf ['a', 'A', 'p', 'P'])) (.char (.oneOf ['m', 'M']))
  | weekday full => nameShape full
  | monthName full => nameShape full
  | timestamp => .seq (Regex.exactly '-').opt digit.plus
  | milliseconds => digit.times 3
  | microseconds => digit.times 6
  | offset false => .seq sign (digit.times 4)
  | offset true => .seq sign (.seq (digit.times 2) (.seq (.exactly ':') (digit.times 2)))

def numberShapeText (padded : Bool) : String :=
  if padded then "\\d\x7b2\x7d" else "\\d\x7b1,2\x7d"

def nameShapeText (full : Bool) : String :=
  if full then "[A-Za-z]+" else "[A-Za-z]\x7b3\x7d"

/-- The written form of `shape`. -/
def shapeText : Token → String
  | day padded => numberShapeText padded
  | month padded => numberShapeText padded
  | year => "\\d\x7b4\x7d"
  | yearOfCentury => "\\d\x7b2\x7d"
  | hour padded => numberShapeText padded
  | clockHour padded => numberShapeText padded
  | minute => "\\d\x7b2\x7d"
  | second => "\\d\x7b2\x7d"
  | meridiem => "(?i:am|pm)"
  | weekday full => nameShapeText full
  | monthName full => nameShapeText full
  | timestamp => "-?\\d+"
  | milliseconds => "\\d\x7b3\x7d"
  | microseconds => "\\d\x7b6\x7d"
  | offset false => "[+-]\\d\x7b4\x7d"
  | offset true => "[+-]\\d\x7b2\x7d:\\d\x7b2\x7d"

/-! ## What a token determines -/

def givesYear : Token → Bool
  | year | yearOfCentury => true
  | _ => false

def givesMonth : Token → Bool
  | month _ | monthName _ => true
  | _ => false

def givesDay : Token → Bool
  | day _ => true
  | _ => false

def givesHour : Token → Bool
  | hour _ => true
  | _ => false

def givesClockHour : Token → Bool
  | clockHour _ => true
  | _ => false

def givesMeridiem : Token → Bool
  | meridiem => true
  | _ => false

def givesMinute : Token → Bool
  | minute => true
  | _ => false

end Token

end FormCheck.DatePattern
