import FormCheck.Schema.Json
import FormCheck.Toml.Document

/-!
# Schemas as TOML

A schema is read from the tables `rules` and `labels` of a document; labels may be left out.
Tables and entries of other names are ignored. A date or time in place of a table counts as a table
with one entry, under a name that is kept for this.

## Main definitions

* `Schema.ofTable?`, `Schema.ofTomlText`: reading.
-/

namespace FormCheck.Schema

/-- The named texts of entries that are all strings. -/
def pairsOfEntries? : List (String × Toml.Value) → Option (List (String × String))
  | [] => some []
  | (name, .string text) :: es => (pairsOfEntries? es).map ((name, text) :: ·)
  | _ => none

/-- The name of the only entry of a date or time that stands for a table. -/
def dateTimeKey : String := "$__toml_private_datetime"

/-- The named texts of a table or of what counts as one. -/
def pairsOfValue? : Toml.Value → Option (List (String × String))
  | .table _ entries => pairsOfEntries? entries
  | .dateTime t => some [(dateTimeKey, t.text)]
  | _ => none

/-- The schema of a document. -/
def ofTable? (t : Toml.Table) : Option Schema := do
  let rules ← (t.get? rulesKey).bind pairsOfValue?
  match t.get? labelsKey with
  | none => return { rules := .ofList rules }
  | some v => return { rules := .ofList rules, labels := .ofList (← pairsOfValue? v) }

def ofTomlText (text : String) : Except Fault Schema :=
  match (Toml.parse? text).bind ofTable? with
  | some s => .ok s
  | none => .error .malformedToml

end FormCheck.Schema
