import FormCheck.Trace

/-!
# Validators

A validator is a named check that a rule can ask for. Whether a value passes depends on the value
and on the rule's modifier alone.

## Main definitions

* `Validator`: the check, the message for a value that fails it, and what it reports meanwhile.
-/

namespace FormCheck

structure Validator where
  /-- Whether a value passes, given the modifier of the rule. -/
  accepts : Option String → Option String → Bool
  /-- The message for a value that fails, given the label of the field and the modifier. -/
  message : String → Option String → String
  /-- The events met while a value is checked. -/
  events : Option String → Option String → List Event := fun _ _ => []

namespace Validator

/-- The diagnostic text of a validator, which shows nothing of its functions. -/
def debugText (_ : Validator) : String := "FnValidator \x7b .. \x7d"

end Validator

end FormCheck
