import FormCheck.Decimal.Power
import FormCheck.Toml.Table

/-!
# TOML scalars other than strings

Of a number or a boolean only its being well formed is asked.

## Main definitions

* `Toml.isInteger`, `Toml.isFloat`: the forms of numbers.
* `Toml.scalar?`: the value that a number, a boolean or a date and time stands for.
* `Toml.takeScalar`: takes the scalar that a text starts with.
-/

namespace FormCheck.Toml

open Decimal (twoPow tenPow)

/-! ## Digits -/

/-- Whether a text consists of digits, with single underscores between them. -/
def isDigitRun (isDigit : Char → Bool) : List Char → Bool
  | [] => false
  | [c] => isDigit c
  | c :: '_' :: s => isDigit c && isDigitRun isDigit s
  | c :: s => isDigit c && isDigitRun isDigit s

/-- Whether a text is a zero or a run of decimal digits that does not start with one. -/
def isDecimal : List Char → Bool
  | ['0'] => true
  | '0' :: _ => false
  | s => isDigitRun Char.isDigit s

def isHexDigit (c : Char) : Bool := c.isDigit || 'a' ≤ c && c ≤ 'f' || 'A' ≤ c && c ≤ 'F'

def isOctalDigit (c : Char) : Bool := '0' ≤ c && c ≤ '7'

def isBinaryDigit (c : Char) : Bool := c == '0' || c == '1'

/-- The number that digits of a base write, leaving out underscores. -/
def numberIn (base : Nat) (s : List Char) : Nat :=
  (s.filter (· != '_')).foldl (fun n c => base * n + (Text.hexValue? c).getD 0) 0

/-- The sign of a text, if it has one, and whether that is a minus, and the rest. -/
def dropSign : List Char → Option Bool × List Char
  | '+' :: s => (some false, s)
  | '-' :: s => (some true, s)
  | s => (none, s)

/-! ## Numbers -/

/-- The first number that is too large for 128 bits. -/
def integerBound : Nat := twoPow 128

def isInteger (s : List Char) : Bool :=
  match s with
  | '0' :: 'x' :: ds => isDigitRun isHexDigit ds && numberIn 16 ds < integerBound
  | '0' :: 'o' :: ds => isDigitRun isOctalDigit ds && numberIn 8 ds < integerBound
  | '0' :: 'b' :: ds => isDigitRun isBinaryDigit ds && numberIn 2 ds < integerBound
  | s =>
    let (sign, ds) := dropSign s
    isDecimal ds &&
      if sign = some true then numberIn 10 ds ≤ integerBound / 2 else numberIn 10 ds < integerBound

/-- Whether `m * 10 ^ e` rounds to a floating-point number of 64 bits, the greatest of which is
followed by numbers that are too large. The number of digits decides for most exponents. -/
def isFinite (m : Nat) (e : Int) : Bool :=
  let size := (Nat.toDigits 10 m).length + e
  m = 0 || size ≤ 308 ||
    size ≤ 310 && m * tenPow e.toNat < (twoPow 1024 - twoPow 970) * tenPow (-e).toNat

def isExponentMark (c : Char) : Bool := c == 'e' || c == 'E'

/-- Whether a text is a decimal number with a fraction, an exponent or both. -/
def isDecimalFloat (s : List Char) : Bool :=
  let s := (dropSign s).2
  let whole := s.takeWhile fun c => c != '.' && !isExponentMark c
  let s := s.dropWhile fun c => c != '.' && !isExponentMark c
  let fraction? := match s with
    | '.' :: t => some (t.takeWhile (!isExponentMark ·))
    | _ => none
  let exponent? := match s.dropWhile (!isExponentMark ·) with
    | _ :: t => some (dropSign t)
    | [] => none
  let fraction := (fraction?.getD []).filter (· != '_')
  let exponent : Int := match exponent? with
    | some (sign, ds) => if sign = some true then -numberIn 10 ds else numberIn 10 ds
    | none => 0
  isDecimal whole && fraction?.all (isDigitRun Char.isDigit) &&
    exponent?.all (isDigitRun Char.isDigit ·.2) && (fraction?.isSome || exponent?.isSome) &&
    isFinite (numberIn 10 (whole ++ fraction)) (exponent - fraction.length)

def isFloat (s : List Char) : Bool :=
  let word := (dropSign s).2
  word = ['i', 'n', 'f'] || word = ['n', 'a', 'n'] || isDecimalFloat s

/-! ## Taking a scalar -/

def isBoolean (s : List Char) : Bool :=
  s = ['t', 'r', 'u', 'e'] || s = ['f', 'a', 'l', 's', 'e']

/-- The value of a scalar. No text is both a number and a date or time. -/
def scalar? (s : List Char) : Option Value :=
  if isBoolean s || isInteger s || isFloat s then some .scalar
  else (DateTime.parse? s).map .dateTime

/-- Whether a character ends a scalar. -/
def endsScalar (c : Char) : Bool :=
  c ∈ [',', '=', '[', ']', '{', '}', '#', ' ', '\t', '\r', '\n']

/-- The scalar that a text starts with, which may be a date and a time with a blank between them,
and the rest of the text. -/
def splitScalar (s : List Char) : List Char × List Char :=
  let first := s.takeWhile (!endsScalar ·)
  match s.dropWhile (!endsScalar ·) with
  | ' ' :: d :: rest =>
    if isDate first ∧ d.isDigit then
      (first ++ ' ' :: (d :: rest).takeWhile (!endsScalar ·), (d :: rest).dropWhile (!endsScalar ·))
    else (first, ' ' :: d :: rest)
  | rest => (first, rest)

/-- Takes the scalar that a text starts with. -/
def takeScalar (s : List Char) : Option (Value × List Char) :=
  let (scalar, rest) := splitScalar s
  (scalar? scalar).map fun v => (v, rest)

end FormCheck.Toml
