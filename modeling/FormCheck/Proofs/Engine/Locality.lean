import FormCheck.Engine

/-!
# What a run depends on

A run looks at a field only if it has a rule, at the label of a field only if it has a rule, and at
a validator only if an invocation names it. Runs that agree on all of these are the same, whatever
else their fields, labels and registries hold and however they were built.

## Main definitions

* `Engine.AgreeOn`: two runs that agree on what their rules mention.

## Main results

* `Engine.runInvocations_congr`, `Engine.runRules_congr`: the loops look at nothing else, and so
  does a run.
-/

namespace FormCheck.Engine

variable {e e' : Engine} {fields fields' : Fields} {labels labels' : Labels}

/-- The invocations of one field look at the registry only under the names that they mention. -/
theorem runInvocations_congr {is : List Invocation}
    (h : ∀ i ∈ is, e.registry.get? i.name = e'.registry.get? i.name)
    (field label : String) (value : Option String) :
    e.runInvocations field label value is = e'.runInvocations field label value is := by
  induction is with
  | nil => rfl
  | cons i is ih =>
    rw [List.forall_mem_cons] at h
    obtain ⟨hname, hrest⟩ := h
    simp only [runInvocations, hname, ih hrest]

/-- Whether two engines, fields and labels agree on what a list of rules mentions: the values and
the labels of the fields, and the validators that the expressions name. -/
structure AgreeOn (rules : List (String × String)) (e e' : Engine) (fields fields' : Fields)
    (labels labels' : Labels) : Prop where
  value : ∀ r ∈ rules, fields.get? r.1 = fields'.get? r.1
  label : ∀ r ∈ rules, labels.labelFor r.1 = labels'.labelFor r.1
  validator : ∀ r ∈ rules, ∀ i ∈ Invocation.parse r.2,
    e.registry.get? i.name = e'.registry.get? i.name

theorem AgreeOn.of_cons {r : String × String} {rules : List (String × String)}
    (h : AgreeOn (r :: rules) e e' fields fields' labels labels') :
    AgreeOn rules e e' fields fields' labels labels' where
  value s hs := h.value s (List.mem_cons_of_mem r hs)
  label s hs := h.label s (List.mem_cons_of_mem r hs)
  validator s hs := h.validator s (List.mem_cons_of_mem r hs)

theorem runRules_congr {rules : List (String × String)}
    (h : AgreeOn rules e e' fields fields' labels labels') :
    e.runRules fields labels rules = e'.runRules fields' labels' rules := by
  induction rules with
  | nil => rfl
  | cons r rules ih =>
    have hvalue := h.value r List.mem_cons_self
    have hlabel := h.label r List.mem_cons_self
    have hvalidator := h.validator r List.mem_cons_self
    simp only [runRules, hvalue, hlabel, runInvocations_congr hvalidator, ih h.of_cons]

/-- Runs that agree on the values and the labels of the fields that have a rule, and on the
validators that the rules name, have the same outcome and the same trace. -/
theorem run_congr (rules : Rules)
    (hvalue : ∀ r ∈ rules.toList, fields.get? r.1 = fields'.get? r.1)
    (hlabel : ∀ r ∈ rules.toList, labels.labelFor r.1 = labels'.labelFor r.1)
    (hvalidator : ∀ r ∈ rules.toList, ∀ i ∈ Invocation.parse r.2,
      e.registry.get? i.name = e'.registry.get? i.name) :
    e.run fields rules labels = e'.run fields' rules labels' := by
  have h : AgreeOn rules.toList e e' fields fields' labels labels' :=
    ⟨hvalue, hlabel, hvalidator⟩
  rw [run, run, runRules_congr h]

/-- A field that is declared without a value and one that is missing, with other fields beside
them, a label that is the field's name and none, all validators and just the one that is named. -/
theorem run_congr_required :
    ∃ (rules : Rules) (fields fields' : Fields) (labels labels' : Labels) (e e' : Engine),
      (∀ r ∈ rules.toList, fields.get? r.1 = fields'.get? r.1) ∧
      (∀ r ∈ rules.toList, labels.labelFor r.1 = labels'.labelFor r.1) ∧
      (∀ r ∈ rules.toList, ∀ i ∈ Invocation.parse r.2,
        e.registry.get? i.name = e'.registry.get? i.name) ∧
      fields.contains "name" = true ∧ fields'.contains "name" = false ∧
      e.registry.size = 4 ∧ e'.registry.size = 1 ∧
      e.run fields rules labels = e'.run fields' rules labels' ∧
      (e.run fields rules labels).value = .ok ⟨["name is required."]⟩ := by
  have hvalue : ∀ r ∈ (Rules.ofList [("name", "required")]).toList,
      (Fields.ofList [("age", some "7"), ("name", none)]).get? r.1 =
        (Fields.ofList [("city", some "Bern")]).get? r.1 := by decide
  have hlabel : ∀ r ∈ (Rules.ofList [("name", "required")]).toList,
      (Labels.ofList [("name", "name")]).labelFor r.1 =
        (Labels.ofList [("age", "Age")]).labelFor r.1 := by decide
  have hvalidator : ∀ r ∈ (Rules.ofList [("name", "required")]).toList,
      ∀ i ∈ Invocation.parse r.2, builtin.value.registry.get? i.name =
        (Registry.empty.register "required" Validator.required).value.get? i.name := by
    intro r hr i hi
    obtain rfl := List.mem_singleton.mp hr
    have hparse : Invocation.parse "required" = [⟨"required", none⟩] := by decide
    rw [hparse] at hi
    obtain rfl := List.mem_singleton.mp hi
    rfl
  exact ⟨_, _, _, _, _, builtin.value, ⟨_⟩, hvalue, hlabel, hvalidator, by decide, by decide,
    by decide, by decide, run_congr _ hvalue hlabel hvalidator, rfl⟩

end FormCheck.Engine
