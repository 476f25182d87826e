import FormCheck.Json.Value
import FormCheck.Text.Digits

/-!
# JSON numerals

A numeral is kept as it is written until its value is asked for.

## Main definitions

* `Numeral`: the parts of a numeral.
* `Numeral.take`: takes the numeral that a text starts with.
* `Numeral.value?`: its value; there is none if it is too large for a floating-point number.
-/

namespace FormCheck

structure Numeral where
  negative : Bool
  /-- The digits before the point. -/
  whole : List Char
  /-- The digits after the point, if there is one. -/
  fraction : Option (List Char)
  /-- The exponent, if there is one. -/
  exponent : Option Int
deriving DecidableEq, Repr

namespace Numeral

/-! ## Taking a numeral -/

def takeDigits (s : List Char) : List Char × List Char :=
  (s.takeWhile Char.isDigit, s.dropWhile Char.isDigit)

/-- Takes the digits before the point: a zero on its own, or digits that do not start with one. -/
def takeWhole (s : List Char) : Option (List Char × List Char) :=
  match takeDigits s with
  | ([], _) => none
  | ('0' :: _ :: _, _) => none
  | r => some r

/-- Takes a point and at least one digit, if there is a point. -/
def takeFraction : List Char → Option (Option (List Char) × List Char)
  | '.' :: s =>
    match takeDigits s with
    | ([], _) => none
    | (ds, s) => some (some ds, s)
  | s => some (none, s)

/-- Takes a sign, if there is one, and tells whether it is a minus. -/
def takeSign : List Char → Bool × List Char
  | '+' :: s => (false, s)
  | '-' :: s => (true, s)
  | s => (false, s)

/-- Takes an exponent with at least one digit, if there is one. -/
def takeExponent (s : List Char) : Option (Option Int × List Char) :=
  let taken (s : List Char) : Option (Option Int × List Char) :=
    let (negative, s) := takeSign s
    match takeDigits s with
    | ([], _) => none
    | (ds, s) => some (some (if negative then -(Text.ofDigits ds : Int) else Text.ofDigits ds), s)
  match s with
  | 'e' :: s => taken s
  | 'E' :: s => taken s
  | s => some (none, s)

/-- Takes the numeral that a text starts with. -/
def take (s : List Char) : Option (Numeral × List Char) := do
  let (negative, s) := match s with
    | '-' :: s => (true, s)
    | s => (false, s)
  let (whole, s) ← takeWhole s
  let (fraction, s) ← takeFraction s
  let (exponent, s) ← takeExponent s
  return ({ negative, whole, fraction, exponent }, s)

/-! ## The value of a numeral -/

/-- The first number that a significand cannot hold. -/
def significandBound : Nat := Decimal.twoPow 64

/-- Appends digits to a significand as long as it holds them, and counts those it held and those
that were left out. -/
def absorb (significand : Nat) : List Char → Nat × Nat × Nat
  | [] => (significand, 0, 0)
  | d :: ds =>
    let next := 10 * significand + Text.digitValue d
    if next < significandBound then
      let (m, held, left) := absorb next ds
      (m, held + 1, left)
    else (significand, 0, ds.length + 1)

/-- The significand and the decimal exponent. Digits that the significand cannot hold count only
for their place. -/
def parts (n : Numeral) : Nat × Int :=
  let (m, _, left) := absorb 0 n.whole
  let (m, held, _) := absorb m (n.fraction.getD [])
  (m, (left : Int) - held + n.exponent.getD 0)

/-- The greatest exponent of a power of ten that a magnitude holds. -/
def maxPower : Nat := 308

def powerOfTen? (k : Nat) : Option Binary64 :=
  if k ≤ maxPower then Binary64.ofNat? (Decimal.tenPow k) else none

/-- Multiplies by a power of ten, or divides by one; by more than the greatest power in steps of
it, at most `fuel` of them. -/
def scale? (b : Binary64) (e : Int) : Nat → Option Binary64
  | 0 => none
  | fuel + 1 =>
    match powerOfTen? e.natAbs with
    | some p => if 0 ≤ e then b.mul? p else b.div? p
    | none =>
      if b.isZero then some b
      else if 0 ≤ e then none
      else do
        let p ← powerOfTen? maxPower
        scale? (← b.div? p) (e + maxPower) fuel

/-- The magnitude, by one rounding for the significand and one for every step of scaling. -/
def magnitude? (n : Numeral) : Option Binary64 := do
  let (m, e) := n.parts
  scale? (← Binary64.ofNat? m) e (e.natAbs / maxPower + 1)

/-- An integer that 64 bits hold is one; all other numerals, a negative zero among them, are
floating-point numbers. -/
def value? (n : Numeral) : Option JsonNumber :=
  let integer? : Option Int :=
    if n.fraction.isSome || n.exponent.isSome then none
    else
      let m := Text.ofDigits n.whole
      if n.negative then if 0 < m ∧ m ≤ Decimal.twoPow 63 then some (-m) else none
      else if m < significandBound then some m else none
  match integer? with
  | some i => some (.integer i)
  | none => n.magnitude?.map (.float n.negative)

end Numeral

end FormCheck
