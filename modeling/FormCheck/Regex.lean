import FormCheck.Text.DecimalDigit

/-!
# Regular expressions

Regular expressions over characters, and the texts that they describe.

## Main definitions

* `CharClass`: the characters that one position takes.
* `Regex`: regular expressions, with `Regex.opt`, `Regex.plus`, `Regex.times` and `Regex.upTo` on
  top of the constructors.
* `Regex.Matches`: which texts an expression describes.
-/

namespace FormCheck

/-- The characters that one position of a regular expression takes. -/
inductive CharClass where
  /-- The decimal digits of all scripts. -/
  | decimalDigit
  /-- The characters in one of the closed intervals. -/
  | within (intervals : List (Char × Char))
deriving DecidableEq, Repr

namespace CharClass

def contains : CharClass → Char → Bool
  | decimalDigit, c => Text.isDecimalDigit c
  | within intervals, c => intervals.any fun i => i.1 ≤ c && c ≤ i.2

/-- The class of the listed characters. -/
def oneOf (cs : List Char) : CharClass := within (cs.map fun c => (c, c))

def asciiLetter : CharClass := within [('A', 'Z'), ('a', 'z')]

theorem contains_oneOf {cs : List Char} {c : Char} :
    (oneOf cs).contains c = true ↔ c ∈ cs := by
  simp only [contains, oneOf, List.any_map, List.any_eq_true, Function.comp_apply,
    Bool.and_eq_true, decide_eq_true_eq]
  constructor
  · rintro ⟨d, hd, h₁, h₂⟩
    exact Char.le_antisymm h₁ h₂ ▸ hd
  · exact fun h => ⟨c, h, Char.le_refl c, Char.le_refl c⟩

end CharClass

inductive Regex where
  /-- The empty text. -/
  | empty
  /-- One character of a class. -/
  | char (k : CharClass)
  /-- A text of the first expression, then one of the second. -/
  | seq (r s : Regex)
  /-- A text of either expression. -/
  | alt (r s : Regex)
  /-- Any number of texts of the expression. -/
  | star (r : Regex)
deriving DecidableEq, Repr

namespace Regex

/-! ## Derived expressions -/

/-- The character `c` and nothing else. -/
def exactly (c : Char) : Regex := char (.oneOf [c])

def opt (r : Regex) : Regex := alt r empty

def plus (r : Regex) : Regex := seq r (star r)

/-- `n` texts of `r` in a row. -/
def times : Nat → Regex → Regex
  | 0, _ => empty
  | n + 1, r => seq r (times n r)

/-- At most `n` texts of `r` in a row. -/
def upTo : Nat → Regex → Regex
  | 0, _ => empty
  | n + 1, r => opt (seq r (upTo n r))

/-- Texts of the listed expressions in a row. -/
def chain (rs : List Regex) : Regex := rs.foldr seq empty

/-! ## The texts that an expression describes -/

inductive Matches : Regex → List Char → Prop where
  | empty : Matches empty []
  | char {k c} (h : k.contains c = true) : Matches (char k) [c]
  | seq {r s u v} (hu : Matches r u) (hv : Matches s v) : Matches (seq r s) (u ++ v)
  | altLeft {r s u} (hu : Matches r u) : Matches (alt r s) u
  | altRight {r s u} (hu : Matches s u) : Matches (alt r s) u
  | starNil {r} : Matches (star r) []
  | starCons {r u v} (hu : Matches r u) (hv : Matches (star r) v) : Matches (star r) (u ++ v)

end Regex

end FormCheck
