import FormCheck.Json.Kind

/-!
# Faults

Faults of a form's configuration. A value that fails a rule is no fault.

## Main definitions

* `Fault`: the causes.
* `Fault.message`: their wording.
-/

namespace FormCheck

inductive Fault where
  /-- A rule names a validator that is not registered. -/
  | unresolvedValidator (field name : String)
  /-- A field set that is no JSON object. -/
  | notAnObject (kind : JsonKind)
  /-- A schema text that is not JSON, or not a schema. -/
  | malformedJson
  /-- A schema text that is not TOML, or not a schema. -/
  | malformedToml
  /-- A field whose value is a collection. -/
  | invalidFieldValue (field : String) (kind : JsonKind)
deriving DecidableEq, Repr

namespace Fault

def message : Fault → String
  | unresolvedValidator field name =>
    "No validator registered for rule '" ++ name ++ "' (field '" ++ field ++ "')"
  | notAnObject kind =>
    "Invalid rule schema: field set must be a JSON object, got " ++ kind.name
  | malformedJson => "Invalid rule schema: JSON parse error"
  | malformedToml => "Invalid rule schema: TOML parse error"
  | invalidFieldValue field kind =>
    "Field '" ++ field ++ "' has an unsupported value of type " ++ kind.name

end Fault

end FormCheck
