import FormCheck.Decimal.Shortest
import FormCheck.Json.Kind

/-!
# JSON values

## Main definitions

* `JsonNumber`: an integer of at most 64 bits, or a floating-point number.
* `Json`: JSON values. The members of an object are kept in the order in which they are listed.
* `Json.kind`: the kind of a value.
-/

namespace FormCheck

inductive JsonNumber where
  | integer (n : Int)
  | float (negative : Bool) (magnitude : Binary64)
deriving DecidableEq, Repr

namespace JsonNumber

/-- The decimal text of an integer. -/
def integerText : Int → List Char
  | .ofNat n => Nat.toDigits 10 n
  | .negSucc n => '-' :: Nat.toDigits 10 (n + 1)

/-- The decimal text. -/
def text : JsonNumber → List Char
  | integer n => integerText n
  | float negative magnitude => (if negative then ['-'] else []) ++ magnitude.text

end JsonNumber

inductive Json where
  | null
  | bool (b : Bool)
  | number (n : JsonNumber)
  | string (s : String)
  | array (items : List Json)
  | object (members : List (String × Json))
deriving Repr

namespace Json

def kind : Json → JsonKind
  | null => .null
  | bool _ => .boolean
  | number _ => .number
  | string _ => .string
  | array _ => .array
  | object _ => .object

end Json

end FormCheck
