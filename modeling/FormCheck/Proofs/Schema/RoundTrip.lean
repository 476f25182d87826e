import FormCheck.Proofs.Json.Assembly
import FormCheck.Proofs.OrderedMap.Entries
import FormCheck.Schema.Json

/-!
# Schemas read back

The text of a schema writes an object of objects of strings. Reading it meets the rules and the
labels in the order in which they were written, and inserting them in that order builds the same
maps again. Labels that are left out are those of a schema without labels.

## Main results

* `Schema.composes_toJson`: the tree that the texts of a schema write.
* `Schema.ofJsonText_jsonText`: the schema itself is read back.
* `Schema.exists_ofJsonText_jsonText`: order and outcome of a run are kept.
-/

namespace FormCheck.Schema

/-! ## Named texts -/

/-- The tree of an object whose members are strings. -/
def pairsTree (pairs : List (String × String)) : Json.Tree :=
  .object (pairs.map fun (name, text) => (some name, .string (some text)))

theorem composes_ofPairs {W : Json → Json.Tree → Prop} (hW : Json.Composes W)
    (pairs : List (String × String)) : W (.ofPairs pairs) (pairsTree pairs) := by
  refine hW.object ?_
  induction pairs with
  | nil => exact .nil
  | cons p pairs ih => exact .cons ⟨rfl, hW.string p.2⟩ ih

theorem pairsOfTree?_pairsTree (pairs : List (String × String)) :
    pairsOfTree? (pairsTree pairs) = some pairs := by
  rw [pairsTree, pairsOfTree?]
  induction pairs with
  | nil => rfl
  | cons p pairs ih => rw [List.map_cons, pairsOfMembers?, ih, Option.map_some]

/-! ## Schemas -/

/-- The tree that the text of a schema writes. -/
def tree (s : Schema) : Json.Tree :=
  .object ((some rulesKey, pairsTree s.rules.toList) ::
    if s.labels.isEmpty then [] else [(some labelsKey, pairsTree s.labels.toList)])

theorem composes_toJson {W : Json → Json.Tree → Prop} (hW : Json.Composes W) (s : Schema) :
    W s.toJson s.tree := by
  have hrules := composes_ofPairs hW s.rules.toList
  have hlabels := composes_ofPairs hW s.labels.toList
  refine hW.object (.cons ⟨rfl, hrules⟩ ?_)
  split
  · exact .nil
  · exact .cons ⟨rfl, hlabels⟩ .nil

theorem rules_ofList_toList (r : Rules) : Rules.ofList r.toList = r :=
  congrArg Rules.mk (OrderedMap.ofList_entries r.expressions)

theorem labels_ofList_toList (l : Labels) : Labels.ofList l.toList = l :=
  congrArg Labels.mk (OrderedMap.ofList_entries l.names)

theorem labels_eq_empty {l : Labels} (h : l.isEmpty = true) : l = {} :=
  congrArg Labels.mk (OrderedMap.ext_entries (List.isEmpty_iff.mp h))

theorem ofTree?_tree (s : Schema) : ofTree? s.tree = some s := by
  have hrules := pairsOfTree?_pairsTree s.rules.toList
  have hlabels := pairsOfTree?_pairsTree s.labels.toList
  have hkeys : labelsKey ≠ rulesKey := by decide
  by_cases hempty : s.labels.isEmpty = true
  · simp [tree, ofTree?, Parts.add?, hempty, hrules, rules_ofList_toList,
      ← labels_eq_empty hempty]
  · simp [tree, ofTree?, Parts.add?, hempty, hrules, hlabels, hkeys, rules_ofList_toList,
      labels_ofList_toList]

/-- Reading the text of a schema gives the schema, the order of its entries included. -/
theorem ofJsonText_jsonText (s : Schema) : ofJsonText s.jsonText = .ok s := by
  have htree := Json.parse?_prettyText (composes_toJson Json.composes_printsAs s)
  rw [ofJsonText, jsonText, htree, Option.bind_some, ofTree?_tree]

/-- The text of a schema can be read. The rules and the labels that are read come in the same
order, and checking any fields has the same outcome. -/
theorem exists_ofJsonText_jsonText (s : Schema) :
    ∃ t, ofJsonText s.jsonText = .ok t ∧ t.rules.toList = s.rules.toList ∧
      t.labels.toList = s.labels.toList ∧
      ∀ fields, (t.session fields).value.validate = (s.session fields).value.validate :=
  ⟨s, ofJsonText_jsonText s, rfl, rfl, fun _ => rfl⟩

end FormCheck.Schema
