import FormCheck.Proofs.Schema.RoundTrip
import FormCheck.Proofs.Toml.Sections
import FormCheck.Schema.Toml

/-!
# Schemas in two notations

The same rules and labels can be written as an object of objects and as a document of sections. The
two are read by different readers, and lead to the same schema: both readers meet the entries in the
order in which they are written.

## Main definitions

* `Schema.sections`: the rules and labels of a document.
* `Schema.jsonOf`: the object that writes them.
* `Schema.WritesToml`: the documents of sections that write them.

## Main results

* `Schema.ofJsonText_compactText`: a schema is read back from its text without blanks.
* `Schema.ofTomlText_of_writesToml`: what a document of sections is read as.
-/

namespace FormCheck.Schema

/-- The parts of a document. Labels are left out if there are none. -/
def sections (rules labels : List (String × String)) : List (String × List (String × String)) :=
  ("rules", rules) :: if labels.isEmpty then [] else [("labels", labels)]

def jsonOf (rules labels : List (String × String)) : Json :=
  .object ((sections rules labels).map fun s => (s.1, .ofPairs s.2))

/-- Whether a text writes rules and labels below headers, line by line, in any spelling. -/
def WritesToml (rules labels : List (String × String)) (text : String) : Prop :=
  ∃ lines, List.Forall₂ Toml.SpellsLine (Toml.statementsOf (sections rules labels)) lines ∧
    text.toList = lines.flatten

/-- The schema of listed rules and labels. -/
def ofLists (rules labels : List (String × String)) : Schema where
  rules := .ofList rules
  labels := .ofList labels

section

variable {rules labels : List (String × String)}

theorem toList_rules_ofLists (h : (Entries.names rules).Nodup) :
    (ofLists rules labels).rules.toList = rules := OrderedMap.entries_ofList h

theorem toList_labels_ofLists (h : (Entries.names labels).Nodup) :
    (ofLists rules labels).labels.toList = labels := OrderedMap.entries_ofList h

/-! ## Objects -/

theorem ofJsonText_compactText (s : Schema) : ofJsonText s.toJson.compactText = .ok s := by
  have htree := Json.parse?_compactText (composes_toJson Json.composes_compactsAs s)
  rw [ofJsonText, htree, Option.bind_some, ofTree?_tree]

theorem toJson_ofLists (hr : (Entries.names rules).Nodup) (hl : (Entries.names labels).Nodup) :
    (ofLists rules labels).toJson = jsonOf rules labels := by
  have hempty : (ofLists rules labels).labels.isEmpty = labels.isEmpty :=
    congrArg List.isEmpty (toList_labels_ofLists hl)
  rw [toJson, Rules.toJson, Labels.toJson, toList_rules_ofLists hr, toList_labels_ofLists hl,
    hempty, jsonOf, sections]
  split <;> rfl

/-! ## Documents of sections -/

theorem pairsOfValue?_ofPairs (pairs : List (String × String)) :
    pairsOfValue? (Toml.Table.ofPairs pairs).toValue = some pairs := by
  rw [Toml.Table.ofPairs, Toml.Table.toValue, pairsOfValue?]
  induction pairs with
  | nil => rfl
  | cons e pairs ih => rw [List.map_cons, pairsOfEntries?, ih, Option.map_some]

theorem ofTable?_ofSections :
    ofTable? (.ofSections (sections rules labels)) = some (ofLists rules labels) := by
  have hrules : (Toml.Table.ofSections (sections rules labels)).get? rulesKey =
      some (Toml.Table.ofPairs rules).toValue := by
    simp [Toml.Table.get?, Toml.Table.ofSections, sections, rulesKey]
  have hlabels : (Toml.Table.ofSections (sections rules labels)).get? labelsKey =
      if labels.isEmpty then none else some (Toml.Table.ofPairs labels).toValue := by
    cases labels <;>
      simp [Toml.Table.get?, Toml.Table.ofSections, sections, List.lookup_cons, labelsKey]
  rw [ofTable?, hrules, hlabels]
  cases labels with
  | nil => simp [pairsOfValue?_ofPairs]; rfl
  | cons => simp [pairsOfValue?_ofPairs, ofLists]

theorem nodup_names_sections : (Entries.names (sections rules labels)).Nodup := by
  cases labels <;> simp [sections]

/-- A document of sections is read as the rules and labels that it writes, unless a name comes
twice among either. -/
theorem ofTomlText_of_writesToml {text : String} (h : WritesToml rules labels text) :
    ofTomlText text =
      if (Entries.names rules).Nodup ∧ (Entries.names labels).Nodup then .ok (ofLists rules labels)
      else .error .malformedToml := by
  obtain ⟨lines, hlines, htext⟩ := h
  have hnames : (∀ s ∈ sections rules labels, (Entries.names s.2).Nodup) ↔
      (Entries.names rules).Nodup ∧ (Entries.names labels).Nodup := by
    cases labels <;> simp [sections]
  rw [ofTomlText, Toml.parse?_of_spellsLines hlines htext nodup_names_sections]
  by_cases hnodup : (Entries.names rules).Nodup ∧ (Entries.names labels).Nodup
  · rw [if_pos (hnames.mpr hnodup), if_pos hnodup, Option.bind_some, ofTable?_ofSections]
  · rw [if_neg (hnames.not.mpr hnodup), if_neg hnodup]
    rfl

/-- All rules and labels can be written. -/
theorem exists_writesToml (rules labels : List (String × String)) :
    ∃ text, WritesToml rules labels text := by
  have hrules : "rules".toList ≠ [] ∧ ∀ c ∈ "rules".toList, Toml.isBareChar c = true :=
    ⟨by decide, List.all_eq_true.mp rfl⟩
  have hlabels : "labels".toList ≠ [] ∧ ∀ c ∈ "labels".toList, Toml.isBareChar c = true :=
    ⟨by decide, List.all_eq_true.mp rfl⟩
  have hbare : ∀ s ∈ sections rules labels,
      s.1.toList ≠ [] ∧ ∀ c ∈ s.1.toList, Toml.isBareChar c = true := by
    rw [sections, List.forall_mem_cons]
    refine ⟨hrules, ?_⟩
    split
    · simp
    · rw [List.forall_mem_singleton]
      exact hlabels
  obtain ⟨lines, hlines⟩ := Toml.exists_spellsLines hbare
  exact ⟨String.ofList lines.flatten, lines, hlines, String.toList_ofList⟩

end

/-- Rules and labels in which no name comes twice can be written in both notations. Whichever
spelling is chosen, both texts are read, as the same rules and labels in the order in which they are
written, so that checking any fields has the same outcome. -/
theorem ofJsonText_ofTomlText {rules labels : List (String × String)}
    (hr : (Entries.names rules).Nodup) (hl : (Entries.names labels).Nodup) :
    (∃ text, WritesToml rules labels text) ∧
      ∀ toml, WritesToml rules labels toml →
        ∀ json ∈ [(jsonOf rules labels).compactText, (jsonOf rules labels).prettyText],
          ∃ s t, ofJsonText json = .ok s ∧ ofTomlText toml = .ok t ∧
            s.rules.toList = rules ∧ t.rules.toList = rules ∧
            s.labels.toList = labels ∧ t.labels.toList = labels ∧
            ∀ fields, (s.session fields).value.validate = (t.session fields).value.validate := by
  refine ⟨exists_writesToml rules labels, ?_⟩
  intro toml htoml json hjson
  have hread : ofJsonText json = .ok (ofLists rules labels) := by
    rw [← toJson_ofLists hr hl, List.mem_pair] at hjson
    rcases hjson with rfl | rfl
    · exact ofJsonText_compactText _
    · exact ofJsonText_jsonText _
  have htoml := ofTomlText_of_writesToml htoml
  rw [if_pos ⟨hr, hl⟩] at htoml
  exact ⟨_, _, hread, htoml, toList_rules_ofLists hr, toList_rules_ofLists hr,
    toList_labels_ofLists hl, toList_labels_ofLists hl, fun _ => rfl⟩

/-- A key that looks dotted and holds a quote, and an empty one, whose label is a tab. -/
theorem ofJsonText_ofTomlText_escaped :
    let rules := [("a.\"", "é")]
    let labels := [("", "\t")]
    (Entries.names rules).Nodup ∧ (Entries.names labels).Nodup ∧
      ∃ toml s t, WritesToml rules labels toml ∧
        ofJsonText (jsonOf rules labels).compactText = .ok s ∧ ofTomlText toml = .ok t ∧
        s.rules.toList = rules ∧ t.rules.toList = rules ∧
        s.labels.toList = labels ∧ t.labels.toList = labels := by
  intro rules labels
  have hr : (Entries.names rules).Nodup := by decide
  have hl : (Entries.names labels).Nodup := by decide
  obtain ⟨⟨toml, htoml⟩, hread⟩ := ofJsonText_ofTomlText hr hl
  obtain ⟨s, t, hs, ht, hrules, hrules', hlabels, hlabels', -⟩ :=
    hread toml htoml _ List.mem_cons_self
  exact ⟨hr, hl, toml, s, t, htoml, hs, ht, hrules, hrules', hlabels, hlabels'⟩

end FormCheck.Schema
