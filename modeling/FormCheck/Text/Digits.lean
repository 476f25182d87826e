/-!
# Decimal digits

## Main definitions

* `Text.digitValue`: the value of an ASCII digit.
* `Text.ofDigits`: the number that a sequence of digits writes.
* `Text.lastDigits`: the digits of a number, filled up with zeros.
-/

namespace FormCheck.Text

def digitValue (c : Char) : Nat := c.toNat - '0'.toNat

def ofDigits (ds : List Char) : Nat := ds.foldl (fun n d => 10 * n + digitValue d) 0

@[simp] theorem ofDigits_nil : ofDigits [] = 0 := rfl

theorem ofDigits_append_singleton (ds : List Char) (d : Char) :
    ofDigits (ds ++ [d]) = 10 * ofDigits ds + digitValue d := by
  simp [ofDigits]

/-- The last `width` digits of a number, which starts with as many zeros as one likes. -/
def lastDigits : Nat → Nat → List Char
  | 0, _ => []
  | width + 1, n => lastDigits width (n / 10) ++ [Nat.digitChar (n % 10)]

@[simp] theorem length_lastDigits (width n : Nat) : (lastDigits width n).length = width := by
  induction width generalizing n with
  | zero => rfl
  | succ width ih => simp [lastDigits, ih]

theorem digitValue_digitChar {n : Nat} (h : n < 10) : digitValue (Nat.digitChar n) = n := by
  rw [digitValue, Nat.toNat_digitChar_of_lt_ten h]
  exact Nat.add_sub_cancel_left ..

theorem ofDigits_lastDigits_succ (width n : Nat) :
    ofDigits (lastDigits (width + 1) n) = 10 * ofDigits (lastDigits width (n / 10)) + n % 10 := by
  rw [lastDigits, ofDigits_append_singleton,
    digitValue_digitChar (Nat.mod_lt n (by decide))]

end FormCheck.Text
