import FormCheck.Decimal.Binary64

/-!
# Shortest decimal text

The text of a magnitude has the fewest digits that round back to it, and among texts of that many
digits the one nearest to it.

## Main definitions

* `Binary64.shortest`: the digits and the decimal exponent of the first of them.
* `Binary64.text`: the written form: plain from `1e-5` up to `1e16` with at least one decimal,
  otherwise with an exponent.
-/

namespace FormCheck.Binary64

open Decimal (twoPow tenPow)

/-! ## Exact comparison -/

/-- Compares `a * 10 ^ k` with `b * 2 ^ e`. -/
def compareScaled (a : Nat) (k : Int) (b : Nat) (e : Int) : Ordering :=
  compare (a * tenPow k.toNat * twoPow (-e).toNat) (b * twoPow e.toNat * tenPow (-k).toNat)

/-- The exponent of the first decimal digit of a magnitude other than zero. -/
def decimalExponent (b : Binary64) : Int :=
  let guess := ((Nat.log2 b.mantissa : Int) + b.exponent) * 30103 / 100000
  if compareScaled 1 (guess + 1) b.mantissa b.exponent ≠ .gt then guess + 1
  else if compareScaled 1 guess b.mantissa b.exponent ≠ .gt then guess
  else guess - 1

/-! ## Numbers that round to a magnitude -/

/-- Four times the mantissa, less half the distance to the next smaller magnitude. -/
def lowerBound (b : Binary64) : Nat :=
  if b.mantissa = twoPow 52 ∧ minExponent < b.exponent then 4 * b.mantissa - 1
  else 4 * b.mantissa - 2

/-- Four times the mantissa and half the distance to the next greater magnitude. -/
def upperBound (b : Binary64) : Nat := 4 * b.mantissa + 2

/-- Whether `d * 10 ^ k` rounds to the magnitude. The bounds do so if the mantissa is even. -/
def roundsBack (b : Binary64) (d : Nat) (k : Int) : Bool :=
  let low := compareScaled d k b.lowerBound (b.exponent - 2)
  let high := compareScaled d k b.upperBound (b.exponent - 2)
  if b.mantissa % 2 = 0 then low ≠ .lt ∧ high ≠ .gt else low = .gt ∧ high = .lt

/-! ## The fewest digits -/

/-- The magnitude divided by `10 ^ k`, rounded down. -/
def floorScaled (b : Binary64) (k : Int) : Nat :=
  (b.mantissa * twoPow b.exponent.toNat * tenPow (-k).toNat) /
    (twoPow (-b.exponent).toNat * tenPow k.toNat)

/-- Of the two multiples of `10 ^ k` next to the magnitude the nearer one that rounds back, the
even one if both are as near. -/
def candidate? (b : Binary64) (k : Int) : Option Nat :=
  let d := b.floorScaled k
  match b.roundsBack d k, b.roundsBack (d + 1) k with
  | false, false => none
  | true, false => some d
  | false, true => some (d + 1)
  | true, true =>
    match compareScaled (2 * d + 1) k (2 * b.mantissa) b.exponent with
    | .gt => some d
    | .lt => some (d + 1)
    | .eq => some (if d % 2 = 0 then d else d + 1)

/-- The first candidate with at least `digits` digits, in at most `fuel` attempts, and the exponent
of its last digit. -/
def search (b : Binary64) (digits : Nat) : Nat → Nat × Int
  | 0 => (b.floorScaled (b.decimalExponent - 16), b.decimalExponent - 16)
  | fuel + 1 =>
    let k := b.decimalExponent - digits + 1
    match b.candidate? k with
    | some d => (d, k)
    | none => search b (digits + 1) fuel

/-- Seventeen digits always suffice. -/
def maxDigits : Nat := 17

/-- The digits without zeros at the end. -/
def trimZeros (ds : List Char) : List Char := (ds.reverse.dropWhile (· == '0')).reverse

/-- The digits of the shortest text and the decimal exponent of the first of them. -/
def shortest (b : Binary64) : List Char × Int :=
  let (d, k) := b.search 1 maxDigits
  let ds := Nat.toDigits 10 d
  (trimZeros ds, k + ds.length - 1)

/-! ## The written form -/

/-- Numbers are written plainly from this decimal exponent on. -/
def minPlainExponent : Int := -5

/-- Numbers of this decimal exponent and above are written with an exponent. -/
def maxPlainExponent : Int := 16

/-- Digits with the point after the first `n`, filled up with zeros on both sides of it. -/
def plainText (ds : List Char) (n : Int) : List Char :=
  if 0 < n then
    let whole := ds.take n.toNat
    let rest := ds.drop n.toNat
    whole ++ List.replicate (n.toNat - whole.length) '0' ++ '.' ::
      if rest.isEmpty then ['0'] else rest
  else ['0', '.'] ++ List.replicate (-n).toNat '0' ++ ds

def exponentText (ds : List Char) (e : Int) : List Char :=
  let fraction := if ds.length ≤ 1 then [] else '.' :: ds.drop 1
  ds.take 1 ++ fraction ++ ['e', if e < 0 then '-' else '+'] ++ Nat.toDigits 10 e.natAbs

def text (b : Binary64) : List Char :=
  if b.isZero then ['0', '.', '0']
  else
    let (ds, e) := b.shortest
    if minPlainExponent ≤ e ∧ e < maxPlainExponent then plainText ds (e + 1)
    else exponentText ds e

end FormCheck.Binary64
