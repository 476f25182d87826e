import FormCheck.Text.Blank
import FormCheck.Text.Digits
import FormCheck.Text.Split
import FormCheck.Validator

/-!
# More validators

Validators that a form can register beside the built-in ones.

## Main definitions

* `Validator.oneOf`, `Validator.uppercase`, `Validator.maxLength`, `Validator.notBlank`,
  `Validator.present`: checks of a value.
* `Validator.always`, `Validator.never`: the two constant checks.
-/

namespace FormCheck.Validator

/-- The value has to be one of the parts between the commas of the modifier. -/
def oneOf : Validator where
  accepts value modifier :=
    match value, modifier with
    | some v, some m => (Text.splitAll ',' m.toList).contains v.toList
    | _, _ => false
  message label modifier := label ++ " must be one of " ++ modifier.getD "" ++ "."

/-- The value may hold capital ASCII letters only. -/
def uppercase : Validator where
  accepts value _ := value.any fun v => v.toList.all Char.isUpper
  message label _ := label ++ " must be uppercase."

/-- The greatest limit that can be set: a limit has 64 bits. -/
def maxLimit : Nat := 0xffffffffffffffff

/-- The number that a modifier writes in digits, with an optional plus sign. There is none if the
modifier writes anything else, or a number that is too large. -/
def limit? (modifier : String) : Option Nat :=
  let digits := match modifier.toList with
    | '+' :: s => s
    | s => s
  if digits.isEmpty || !digits.all Char.isDigit || maxLimit < Text.ofDigits digits then none
  else some (Text.ofDigits digits)

/-- The value may have at most as many characters as the modifier says; an absent value has
none. -/
def maxLength : Validator where
  accepts value modifier :=
    (modifier.bind limit?).all fun n => (value.map String.length).getD 0 ≤ n
  message label modifier := label ++ " is longer than " ++ modifier.getD "" ++ " characters."

/-- The value needs a character that is not blank. -/
def notBlank : Validator where
  accepts value _ := value.any fun v => v.toList.any (!Text.isBlank ·)
  message label _ := "Please fill in " ++ label ++ "."

def present : Validator where
  accepts value _ := value.isSome
  message label _ := label ++ " missing"

def always : Validator where
  accepts _ _ := true
  message label _ := label ++ " never fails"

/-- Fails every value, and says what it was asked. -/
def never : Validator where
  accepts _ _ := false
  message label modifier := "label=" ++ label ++ ";modifier=" ++ modifier.getD "(none)"

end FormCheck.Validator
