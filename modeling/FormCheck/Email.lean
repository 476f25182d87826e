import FormCheck.Regex.Acceptance

/-!
# E-mail addresses

## Main definitions

* `Email.addressShape`: a local part, an at sign and a domain of two or more labels.
* `Email.isAddress`: the shape, with limits on the lengths and on the dots of the local part.
-/

namespace FormCheck.Email

/-- Letters, digits and the marks that a local part may hold. -/
def localClass : CharClass :=
  .within ([('a', 'z'), ('A', 'Z'), ('0', '9')] ++
    ".!#$%&\x27*+/=?^_\x60\x7b|\x7d~-".toList.map fun c => (c, c))

def alphanumericClass : CharClass := .within [('a', 'z'), ('A', 'Z'), ('0', '9')]

def labelClass : CharClass := .within [('a', 'z'), ('A', 'Z'), ('0', '9'), ('-', '-')]

/-- Up to 63 letters, digits and hyphens, with no hyphen at either end. -/
def labelShape : Regex :=
  .seq (.char alphanumericClass)
    (Regex.opt (.seq (.upTo 61 (.char labelClass)) (.char alphanumericClass)))

def addressShape : Regex :=
  .chain [.plus (.char localClass), .exactly '@', labelShape,
    .plus (.seq (.exactly '.') labelShape)]

def maxLength : Nat := 254

def maxLocalLength : Nat := 64

/-- The text before the last at sign. -/
def localPart (s : List Char) : List Char :=
  ((s.reverse.dropWhile (· != '@')).drop 1).reverse

/-- Whether two dots stand side by side. -/
def hasDoubleDot : List Char → Bool
  | '.' :: '.' :: _ => true
  | _ :: s => hasDoubleDot s
  | [] => false

def isAddress (value : String) : Bool :=
  let name := localPart value.toList
  value.utf8ByteSize ≤ maxLength && addressShape.accepts value.toList &&
    name.length ≤ maxLocalLength && name.head? != some '.' && name.getLast? != some '.' &&
    !hasDoubleDot name

end FormCheck.Email
