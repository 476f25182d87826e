/-!
# Powers of two and of ten

Numbers are scaled by powers of the two bases in which they are kept and written.

## Main definitions

* `Decimal.twoPow`, `Decimal.tenPow`: the powers with natural exponents.
-/

namespace FormCheck.Decimal

def twoPow (n : Nat) : Nat := Nat.pow 2 n

def tenPow (n : Nat) : Nat := Nat.pow 10 n

theorem twoPow_pos (n : Nat) : 0 < twoPow n := Nat.pow_pos (by decide)

theorem tenPow_pos (n : Nat) : 0 < tenPow n := Nat.pow_pos (by decide)

end FormCheck.Decimal
