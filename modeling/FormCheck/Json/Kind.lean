/-!
# Kinds of JSON values

## Main definitions

* `JsonKind`: the six kinds, with the names that messages give them.
-/

namespace FormCheck

inductive JsonKind where
  | null
  | boolean
  | number
  | string
  | array
  | object
deriving DecidableEq, Repr

namespace JsonKind

def name : JsonKind → String
  | null => "null"
  | boolean => "boolean"
  | number => "number"
  | string => "string"
  | array => "array"
  | object => "object"

end JsonKind

end FormCheck
