import FormCheck.ErrorLog
import FormCheck.Fault
import FormCheck.Fields
import FormCheck.Json.Printer

/-!
# Fields and other collections as JSON

## Main definitions

* `Fields.ofJson`: the fields of a JSON object.
* `Rules.toJson`, `Labels.toJson`, `ErrorLog.toJson`: collections as JSON values.
-/

namespace FormCheck

namespace Json

/-- The object of a list of named texts. -/
def ofPairs (pairs : List (String × String)) : Json :=
  .object (pairs.map fun (name, text) => (name, .string text))

/-- The text that a value stands for as the value of a field. Nothing, and what is false, is a
field without a value; a collection is not the value of a field. -/
def fieldValue? : Json → Except JsonKind (Option String)
  | null => .ok none
  | bool false => .ok none
  | bool true => .ok (some "1")
  | number n => .ok (some (String.ofList n.text))
  | string s => .ok (some s)
  | array _ => .error .array
  | object _ => .error .object

end Json

namespace Fields

/-- Adds the members of an object, up to the first one that is no field. -/
def insertMembers (f : Fields) : List (String × Json) → Except Fault Fields
  | [] => .ok f
  | (name, v) :: ms =>
    match v.fieldValue? with
    | .error kind => .error (.invalidFieldValue name kind)
    | .ok value => (f.insert name value).insertMembers ms

/-- The fields of a JSON object. -/
def ofJson : Json → Except Fault Fields
  | .object members => insertMembers {} members
  | v => .error (.notAnObject v.kind)

end Fields

namespace Rules

def toJson (r : Rules) : Json := .ofPairs r.toList

end Rules

namespace Labels

def toJson (l : Labels) : Json := .ofPairs l.toList

end Labels

namespace ErrorLog

/-- The messages as a JSON array. -/
def messagesJson (l : ErrorLog) : Json := .array (l.errors.map Json.string)

/-- The messages under the name `errors`. -/
def toJson (l : ErrorLog) : Json := .object [("errors", l.messagesJson)]

end ErrorLog

end FormCheck
