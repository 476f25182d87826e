import FormCheck.Json.Fields
import FormCheck.Json.Tree
import FormCheck.Schema

/-!
# Schemas as JSON

A schema is written as an object with the members `rules` and `labels`, both objects whose members
are strings. Labels may be left out; members of other names are ignored. A schema is also read
from an array of the rules and, if it likes, the labels.

## Main definitions

* `Schema.toJson`, `Schema.jsonText`: the written form; empty labels are left out.
* `Schema.ofTree?`, `Schema.ofJsonText`: reading.
-/

namespace FormCheck.Schema

def rulesKey : String := "rules"

def labelsKey : String := "labels"

/-! ## Writing -/

def toJson (s : Schema) : Json :=
  .object ((rulesKey, s.rules.toJson) ::
    if s.labels.isEmpty then [] else [(labelsKey, s.labels.toJson)])

def jsonText (s : Schema) : String := s.toJson.prettyText

/-! ## Reading -/

/-- The named texts of an object whose members are strings. -/
def pairsOfMembers? : List (Option String × Json.Tree) → Option (List (String × String))
  | [] => some []
  | (some name, .string (some text)) :: ms => (pairsOfMembers? ms).map ((name, text) :: ·)
  | _ => none

/-- The named texts of a tree. -/
def pairsOfTree? : Json.Tree → Option (List (String × String))
  | .object members => pairsOfMembers? members
  | _ => none

/-- The rules and labels found so far in the members of an object. -/
structure Parts where
  rules : Option Rules := none
  labels : Option Labels := none

/-- Takes one member. Neither rules nor labels may come twice. -/
def Parts.add? (p : Parts) : Option String × Json.Tree → Option Parts
  | (none, _) => none
  | (some name, t) =>
    if name = rulesKey then
      if p.rules.isSome then none
      else (pairsOfTree? t).map fun pairs => { p with rules := some (.ofList pairs) }
    else if name = labelsKey then
      if p.labels.isSome then none
      else (pairsOfTree? t).map fun pairs => { p with labels := some (.ofList pairs) }
    else some p

/-- The schema that a tree writes. -/
def ofTree? : Json.Tree → Option Schema
  | .object members => do
    let p ← members.foldlM Parts.add? {}
    return { rules := ← p.rules, labels := p.labels.getD {} }
  | .array [rules] => do
    return { rules := .ofList (← pairsOfTree? rules) }
  | .array [rules, labels] => do
    return { rules := .ofList (← pairsOfTree? rules), labels := .ofList (← pairsOfTree? labels) }
  | _ => none

def ofJsonText (text : String) : Except Fault Schema :=
  match (Json.Tree.parse? text.toList).bind ofTree? with
  | some s => .ok s
  | none => .error .malformedJson

end FormCheck.Schema
