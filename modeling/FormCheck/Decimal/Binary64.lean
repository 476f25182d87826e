import FormCheck.Decimal.Power

/-!
# Binary floating-point numbers of 64 bits

The magnitudes of the finite numbers of the standard's double format, as exact data: `m * 2 ^ q`
for a mantissa `m` of at most 53 bits and an exponent `q` between -1074 and 971. All arithmetic
is done on integers and rounds to the nearest magnitude, a tie to the even mantissa.

## Main definitions

* `Binary64`: the magnitudes, each with its only mantissa and exponent.
* `Binary64.ofRatio?`: the magnitude nearest to a fraction.
* `Binary64.mul?`, `Binary64.div?`, `Binary64.ofNat?`: rounded operations; there is no result
  where it would be too large.
-/

namespace FormCheck

open Decimal (twoPow)

namespace Binary64

def minExponent : Int := -1074

def maxExponent : Int := 971

end Binary64

/-- A mantissa has its first bit unless the exponent is the least one, so that every magnitude is
written in one way. -/
structure Binary64 where
  mantissa : Nat
  exponent : Int
  mantissa_lt : mantissa < twoPow 53
  minExponent_le : Binary64.minExponent ≤ exponent
  le_maxExponent : exponent ≤ Binary64.maxExponent
  normal : exponent = Binary64.minExponent ∨ twoPow 52 ≤ mantissa
deriving DecidableEq, Repr

namespace Binary64

def zero : Binary64 where
  mantissa := 0
  exponent := minExponent
  mantissa_lt := by decide
  minExponent_le := by decide
  le_maxExponent := by decide
  normal := .inl rfl

/-- The magnitude `mantissa * 2 ^ exponent`, if there is one. -/
def ofParts? (mantissa : Nat) (exponent : Int) : Option Binary64 :=
  if h : mantissa < twoPow 53 ∧ (minExponent ≤ exponent ∧ exponent ≤ maxExponent) ∧
      (exponent = minExponent ∨ twoPow 52 ≤ mantissa) then
    some ⟨mantissa, exponent, h.1, h.2.1.1, h.2.1.2, h.2.2⟩
  else none

def isZero (b : Binary64) : Bool := b.mantissa == 0

/-- `num / den` rounded to an integer, a tie to the even one. -/
def roundDiv (num den : Nat) : Nat :=
  let q := num / den
  let r := num % den
  if 2 * r < den then q
  else if den < 2 * r then q + 1
  else if q % 2 = 0 then q else q + 1

/-- The fraction `num / den * 2 ^ e`, as numerator and denominator. -/
def scaleRatio (num den : Nat) (e : Int) : Nat × Nat :=
  if 0 ≤ e then (num * twoPow e.toNat, den) else (num, den * twoPow (-e).toNat)

/-- The exponent at which `num / den` has a mantissa of 53 bits, or the least exponent if that is
greater. -/
def exponentOfRatio (num den : Nat) : Int :=
  let e := (Nat.log2 num : Int) - Nat.log2 den - 52
  let (n, d) := scaleRatio num den (-e)
  max (if n < twoPow 52 * d then e - 1 else e) minExponent

/-- The magnitude nearest to `num / den`, unless that is too large. -/
def ofRatio? (num den : Nat) : Option Binary64 :=
  if num = 0 then some zero
  else
    let q := exponentOfRatio num den
    let (n, d) := scaleRatio num den (-q)
    let m := roundDiv n d
    if m = twoPow 53 then ofParts? (twoPow 52) (q + 1) else ofParts? m q

def ofNat? (n : Nat) : Option Binary64 := ofRatio? n 1

def mul? (a b : Binary64) : Option Binary64 :=
  let (n, d) := scaleRatio (a.mantissa * b.mantissa) 1 (a.exponent + b.exponent)
  ofRatio? n d

def div? (a b : Binary64) : Option Binary64 :=
  let (n, d) := scaleRatio a.mantissa b.mantissa (a.exponent - b.exponent)
  ofRatio? n d

/-- One third rounds down, two thirds up. -/
example : ofRatio? 1 3 = ofParts? 6004799503160661 (-54) ∧
    ofRatio? 2 3 = ofParts? 6004799503160661 (-53) := by decide +kernel

/-- The least positive magnitude, half of it, and three quarters of it. -/
example : ofRatio? 1 (twoPow 1074) = ofParts? 1 (-1074) ∧ ofRatio? 1 (twoPow 1075) = some zero ∧
    ofRatio? 3 (twoPow 1076) = ofParts? 1 (-1074) := by decide +kernel

/-- The greatest magnitude, and the first number that is too large. -/
example : ofNat? ((twoPow 53 - 1) * twoPow 971) = ofParts? (twoPow 53 - 1) 971 ∧
    ofNat? (twoPow 1024 - twoPow 970) = none := by decide +kernel

end Binary64

end FormCheck
