/-!
# Hexadecimal numbers

## Main definitions

* `Text.hexValue?`: the value of a hexadecimal digit of either case.
* `Text.hexNumber?`: the number that hexadecimal digits write.
* `Text.fourHexDigits`: the last four hexadecimal digits of a number.
-/

namespace FormCheck.Text

def hexValue? (c : Char) : Option Nat :=
  if '0' ≤ c ∧ c ≤ '9' then some (c.toNat - '0'.toNat)
  else if 'a' ≤ c ∧ c ≤ 'f' then some (c.toNat - 'a'.toNat + 10)
  else if 'A' ≤ c ∧ c ≤ 'F' then some (c.toNat - 'A'.toNat + 10)
  else none

def hexNumber? (ds : List Char) : Option Nat :=
  ds.foldlM (fun n d => (hexValue? d).map (16 * n + ·)) 0

/-- The last four digits, lower case. -/
def fourHexDigits (n : Nat) : List Char :=
  [Nat.digitChar (n / 4096 % 16), Nat.digitChar (n / 256 % 16), Nat.digitChar (n / 16 % 16),
   Nat.digitChar (n % 16)]

theorem hexValue?_digitChar : ∀ d < 16, hexValue? (Nat.digitChar d) = some d := by decide

theorem hexNumber?_fourHexDigits {n : Nat} (h : n < 65536) :
    hexNumber? (fourHexDigits n) = some n := by
  have h₁ := hexValue?_digitChar (n / 4096 % 16) (by omega)
  have h₂ := hexValue?_digitChar (n / 256 % 16) (by omega)
  have h₃ := hexValue?_digitChar (n / 16 % 16) (by omega)
  have h₄ := hexValue?_digitChar (n % 16) (by omega)
  simp only [hexNumber?, fourHexDigits, List.foldlM_cons, List.foldlM_nil, h₁, h₂, h₃, h₄,
    Option.map_some, Option.bind_eq_bind, Option.bind_some, Option.pure_def, Option.some.injEq]
  omega

end FormCheck.Text
