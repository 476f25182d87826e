import FormCheck.DatePattern.Acceptance
import FormCheck.Email
import FormCheck.Validator

/-!
# The built-in validators

## Main definitions

* `Validator.required`: a value has to be present and not empty.
* `Validator.length`: a value needs at least as many characters as the modifier says.
* `Validator.email`: a value has to be an e-mail address.
* `Validator.dateFormat`: a value has to match the date pattern in the modifier.
* `Validator.builtins`: the four of them with their names.
-/

namespace FormCheck.Validator

/-! ## Required -/

def requiredName : String := "required"

def required : Validator where
  accepts value _ := value.any (!·.isEmpty)
  message label _ := label ++ " is required."

/-! ## Length -/

def lengthName : String := "len"

/-- The greatest minimum that can be asked for: a minimum has 64 bits. -/
def maxMinimum : Nat := 0xffffffffffffffff

/-- A number with one more digit, unless it has more than 64 bits then. -/
def appendDigit? (n : Nat) (d : Char) : Option Nat :=
  let next := 10 * n + Text.digitValue d
  if next ≤ maxMinimum then some next else none

/-- A text without the plus sign that it starts with, if there is one. -/
def dropPlus : List Char → List Char
  | '+' :: s => s
  | s => s

/-- The number that a modifier starts with, after blanks and one plus sign. A modifier that does
not start with a number, a negative one among them, reads as zero, and a number that is too large
as the greatest minimum. -/
def minimumLength (modifier : String) : Nat :=
  let s := dropPlus (Text.dropBlank modifier.toList)
  let digits := s.takeWhile Char.isDigit
  if s.head? = some '-' then 0
  else if digits.isEmpty then 0
  else (digits.foldlM appendDigit? 0).getD maxMinimum

/-- A minimum of zero asks for nothing, not even for a value. -/
def length : Validator where
  accepts value modifier :=
    let minimum := (modifier.map minimumLength).getD 0
    minimum == 0 || value.any fun v => minimum ≤ v.length
  message label modifier :=
    label ++ " is shorter than the required " ++ modifier.getD "" ++ " characters."

/-! ## E-mail -/

def emailName : String := "email"

def email : Validator where
  accepts value _ := value.any Email.isAddress
  message label _ := label ++ " is not a valid e-mail address."

/-! ## Date format -/

def dateFormatName : String := "date-format"

/-- The part of the library that the events of `dateFormat` come from. -/
def eventTarget : String := "gatekeep_validation::validators"

/-- Empty and absent values pass. A value fails if there is no pattern, or none that can be
read. -/
def dateFormat : Validator where
  accepts value modifier :=
    match value.filter (!·.isEmpty), modifier with
    | none, _ => true
    | some _, none => false
    | some v, some pattern =>
      match DatePattern.compile pattern with
      | .ok p => p.accepts v
      | .error _ => false
  message label modifier :=
    label ++ " does not match the required date format " ++ modifier.getD "" ++ "."
  events value modifier :=
    match value.filter (!·.isEmpty), modifier with
    | none, _ => []
    | some v, none => [⟨eventTarget, "date-format rule has no pattern; rejecting '" ++ v ++ "'"⟩]
    | some _, some pattern =>
      match DatePattern.compile pattern with
      | .ok _ => []
      | .error e =>
        [⟨eventTarget, "date-format pattern '" ++ pattern ++ "' rejected: " ++ e.message⟩]

/-! ## All of them -/

/-- The built-in validators in the order in which a registry takes them. -/
def builtins : List (String × Validator) :=
  [(lengthName, length), (emailName, email), (requiredName, required),
   (dateFormatName, dateFormat)]

end FormCheck.Validator
