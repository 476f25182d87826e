/-!
# Classes of characters as lists of intervals

A property of characters that a standard fixes by a table is kept as the list of the closed
intervals of code points that have it.

## Main definitions

* `Text.inIntervals`: whether a character lies in one of the intervals.
-/

namespace FormCheck.Text

/-- Whether the code point of `c` lies in one of the closed intervals. -/
def inIntervals (intervals : List (Nat × Nat)) (c : Char) : Bool :=
  intervals.any fun i => i.1 ≤ c.toNat && c.toNat ≤ i.2

theorem inIntervals_iff {intervals : List (Nat × Nat)} {c : Char} :
    inIntervals intervals c = true ↔ ∃ i ∈ intervals, i.1 ≤ c.toNat ∧ c.toNat ≤ i.2 := by
  simp [inIntervals]

end FormCheck.Text
