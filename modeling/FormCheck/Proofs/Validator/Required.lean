import FormCheck.Proofs.Engine.Reordering
import FormCheck.Proofs.OrderedMap.Changes

/-!
# Required fields

A rule set that asks for nothing but fields being filled in reports just those that are not, in
order, once each.

## Main results

* `Rules.toList_ofList_map`: the same rule for a list of fields.
* `Engine.run_required`: the messages of a run.
-/

namespace FormCheck

/-- The same expression for a list of fields, in which fields may repeat. -/
theorem Rules.toList_ofList_map (fields : List String) (expression : String) :
    (Rules.ofList (fields.map fun field => (field, expression))).toList =
      fields.eraseDups.map fun field => (field, expression) := by
  have hlists := OrderedMap.lists_ofList (fields.map fun field => (field, expression))
  have hfields : Entries.names (fields.map fun field => (field, expression)) = fields := by
    simp [Entries.names, Function.comp_def]
  have hexpression : ∀ r ∈ (Rules.ofList (fields.map fun field => (field, expression))).toList,
      (r.1, expression) = r := by
    intro r hr
    obtain ⟨field, -, hfield⟩ := List.mem_map.mp (Entries.mem_of_last? (hlists.values r hr))
    cases hfield
    rfl
  have hnames := hlists.names
  rw [hfields] at hnames
  rw [← hnames, Entries.names, List.map_map]
  exact ((List.map_congr_left hexpression).trans (List.map_id' _)).symm

namespace Engine

variable {e : Engine} (h : e.registry.get? Validator.requiredName = some Validator.required)
include h

theorem failure?_required (fields : Fields) (labels : Labels) (name : String) :
    e.failure? fields labels (name, ⟨Validator.requiredName, none⟩) =
      if (fields.get? name).all (·.isEmpty) then some (labels.labelFor name ++ " is required.")
      else none := by
  have haccepts : ∀ value : Option String,
      Validator.required.accepts value none = !value.all (·.isEmpty) := by
    intro value
    cases value <;> rfl
  simp only [failure?, h, haccepts]
  cases (fields.get? name).all (·.isEmpty) <;> rfl

/-- A run that asks for nothing but that fields are filled in reports those that are not. -/
theorem run_required (fields : Fields) (labels : Labels) (names : List String) :
    (e.run fields (.ofList (names.map fun name => (name, Validator.requiredName))) labels).value =
      .ok ⟨(names.eraseDups.filter fun name => (fields.get? name).all (·.isEmpty)).map
        fun name => labels.labelFor name ++ " is required."⟩ := by
  have hparse : Invocation.parse Validator.requiredName = [⟨Validator.requiredName, none⟩] := by
    decide
  have hinvocations :
      (Rules.ofList (names.map fun name => (name, Validator.requiredName))).invocations =
        names.eraseDups.map fun name => (name, ⟨Validator.requiredName, none⟩) := by
    rw [Rules.invocations, Rules.toList_ofList_map, invocationsOf, List.flatMap_map]
    simp only [hparse, List.map_singleton]
    exact List.map_eq_flatMap.symm
  refine run_eq_ok_iff.mpr ⟨?_, ?_⟩
  · rw [hinvocations]
    intro p hp
    obtain ⟨name, -, rfl⟩ := List.mem_map.mp hp
    simp [resolves, h]
  · rw [hinvocations, failures, List.filterMap_map, ← List.filterMap_eq_filter,
      List.map_filterMap]
    refine List.filterMap_congr fun name _ => ?_
    rw [Function.comp_apply, failure?_required h, Option.guard]
    split <;> rfl

end Engine

end FormCheck
