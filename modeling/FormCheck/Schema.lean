import FormCheck.Session

/-!
# Schemas

A schema holds the rules and the labels of a form, apart from its values.

## Main definitions

* `Schema`: rules and labels.
* `Schema.session`: the session that checks values against a schema.
-/

namespace FormCheck

structure Schema where
  rules : Rules := {}
  labels : Labels := {}
deriving BEq

namespace Schema

/-- A session with the built-in validators. -/
def session (s : Schema) (fields : Fields) : Traced Session :=
  (Session.new fields s.rules).map (·.setLabels s.labels)

end Schema

end FormCheck
