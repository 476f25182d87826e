import FormCheck.Proofs.Engine.Locality
import FormCheck.Proofs.OrderedMap.Entries
import FormCheck.Proofs.Text.ByteOrder
import Mathlib.Data.List.Induction

/-!
# Registries over time

A registry is what the last operation on each name made of it. All that can be seen of a registry,
its sorted names, its diagnostic text and the runs of its validators, follows from that. In which
order operations on different names came makes no difference.

## Main definitions

* `Registry.Operation`: registering and removing.
* `Registry.after`: the registry after a list of operations.
* `Registry.lastOn?`: the last operation on a name.

## Main results

* `Registry.get?_apply`, `Registry.get?_after`: what one operation does, and what many do.
* `Registry.pairwise_names`: the names ascend, so none of them occurs twice.
* `Registry.names_congr`, `Registry.run_congr_get?`: registries with the same validators look and
  act the same.
-/

namespace FormCheck.Registry

/-! ## Operations -/

/-- What can be done to a registry. A validator that is shared with other registries is registered
as any other is. -/
inductive Operation where
  | register (name : String) (v : Validator)
  | remove (name : String)

namespace Operation

def name : Operation → String
  | register name _ | remove name => name

/-- The validator that the operation leaves under its name. -/
def validator? : Operation → Option Validator
  | register _ v => some v
  | remove _ => none

def apply : Operation → Registry → Registry
  | register name v, r => (r.register name v).value
  | remove name, r => (r.take name).value.2

end Operation

/-- The registry after operations, the first of them first. -/
def after (start : Registry) (ops : List Operation) : Registry :=
  ops.foldl (fun r op => op.apply r) start

def lastOn? (name : String) (ops : List Operation) : Option Operation :=
  ops.reverse.find? (·.name == name)

theorem lastOn?_append_singleton (name : String) (ops : List Operation) (op : Operation) :
    lastOn? name (ops ++ [op]) = if name = op.name then some op else lastOn? name ops := by
  rw [lastOn?, List.reverse_append, List.reverse_singleton, List.singleton_append,
    List.find?_cons]
  by_cases h : name = op.name
  · simp [h]
  · have hne : (op.name == name) = false := beq_eq_false_iff_ne.mpr (Ne.symm h)
    rw [hne, if_neg h, lastOn?]

theorem get?_apply (op : Operation) (r : Registry) (name : String) :
    (op.apply r).get? name = if name = op.name then op.validator? else r.get? name := by
  cases op with
  | register other v => exact r.get?_register other name v
  | remove other => exact r.get?_remove other name

/-- The last operation on a name decides, and without one the name is as it was. -/
theorem get?_after (start : Registry) (ops : List Operation) (name : String) :
    (start.after ops).get? name =
      match lastOn? name ops with
      | some op => op.validator?
      | none => start.get? name := by
  induction ops using List.reverseRecOn with
  | nil => rfl
  | append_singleton ops op ih =>
    have happend : start.after (ops ++ [op]) = op.apply (start.after ops) := List.foldl_concat ..
    rw [happend, get?_apply, lastOn?_append_singleton]
    by_cases h : name = op.name
    · rw [if_pos h, if_pos h]
    · rw [if_neg h, if_neg h, ih]

/-! ## Names -/

theorem contains_iff (r : Registry) (name : String) :
    r.contains name = true ↔ ∃ v, r.get? name = some v :=
  Option.isSome_iff_exists

theorem perm_names (r : Registry) : r.names.Perm r.validators.names := List.mergeSort_perm _ _

theorem mem_names_iff (r : Registry) (name : String) :
    name ∈ r.names ↔ r.contains name = true := by
  rw [r.perm_names.mem_iff, contains_iff]
  constructor
  · intro h
    obtain ⟨e, he, rfl⟩ := List.mem_map.mp h
    exact ⟨e.2, OrderedMap.get?_eq_some_iff.mpr he⟩
  · rintro ⟨v, hv⟩
    exact List.mem_map.mpr ⟨_, OrderedMap.get?_eq_some_iff.mp hv, rfl⟩

theorem length_names (r : Registry) : r.names.length = r.size := by
  rw [r.perm_names.length_eq]
  exact List.length_map _

theorem nodup_names (r : Registry) : r.names.Nodup :=
  r.perm_names.nodup_iff.mpr r.validators.nodup

/-- Sorted names ascend strictly, because each of them is registered once. -/
theorem pairwise_names (r : Registry) : r.names.Pairwise (· < ·) := by
  have hsorted : r.names.Pairwise (· ≤ ·) := by
    refine (List.pairwise_mergeSort ?_ ?_ r.validators.names).imp of_decide_eq_true
    · intro a b c hab hbc
      exact decide_eq_true (String.le_trans (of_decide_eq_true hab) (of_decide_eq_true hbc))
    · intro a b
      simpa using String.le_total a b
  refine hsorted.imp₂ ?_ r.nodup_names
  intro a b hle hne
  by_contra hlt
  exact hne (String.le_antisymm hle (String.not_lt.mp hlt))

/-! ## Registries with the same validators -/

variable {r s : Registry}

theorem names_congr (h : ∀ name, r.get? name = s.get? name) : r.names = s.names := by
  have hmem : ∀ name, name ∈ r.names ↔ name ∈ s.names := by
    intro name
    rw [mem_names_iff, mem_names_iff, contains_iff, contains_iff, h]
  have hperm : r.names.Perm s.names :=
    (List.perm_ext_iff_of_nodup r.nodup_names s.nodup_names).mpr hmem
  refine hperm.eq_of_pairwise ?_ r.pairwise_names s.pairwise_names
  intro a b _ _ hab hba
  exact absurd hba (String.lt_asymm hab)

theorem debugText_congr (h : r.names = s.names) : r.debugText = s.debugText := by
  unfold debugText
  rw [h]

theorem run_congr_get? (h : ∀ name, r.get? name = s.get? name) (fields : Fields) (rules : Rules)
    (labels : Labels) :
    (Engine.mk r).run fields rules labels = (Engine.mk s).run fields rules labels := by
  have hagree : Engine.AgreeOn rules.toList ⟨r⟩ ⟨s⟩ fields fields labels labels :=
    ⟨fun _ _ => rfl, fun _ _ => rfl, fun _ _ i _ => h i.name⟩
  rw [Engine.run, Engine.run, Engine.runRules_congr hagree]

theorem get?_builtin (name : String) :
    builtin.value.get? name = Validator.builtins.lookup name :=
  Entries.get?_eq_lookup name Validator.builtins

/-- After operations on any registry, be it empty or that of the built-in validators, each name has
the validator of the last operation on it, and its old one if there was none. The names that are
shown are just those, each once, in the order of their bytes and of their code points alike. What
was done before the last operation on a name, and in which order names were dealt with, cannot be
told from the registry or from a run. -/
theorem lastOn?_determines (start : Registry) (ops : List Operation) :
    let r := start.after ops
    (∀ name, r.get? name =
        match lastOn? name ops with
        | some (.register _ v) => some v
        | some (.remove _) => none
        | none => start.get? name) ∧
      (∀ name, empty.get? name = none) ∧
      (∀ name, builtin.value.get? name = Validator.builtins.lookup name) ∧
      (∀ name, r.contains name = true ↔ ∃ v, r.get? name = some v) ∧
      (∀ name, (r.take name).value.1 = r.get? name) ∧
      (∀ name, name ∈ r.names ↔ r.contains name = true) ∧
      r.names.Pairwise (fun a b => Text.bytes a < Text.bytes b ∧ a < b) ∧
      r.names.length = r.size ∧
      ∀ (start' : Registry) (ops' : List Operation),
        (∀ name, lastOn? name ops = lastOn? name ops') →
        (∀ name, lastOn? name ops = none → start.get? name = start'.get? name) →
        let r' := start'.after ops'
        r.names = r'.names ∧ r.debugText = r'.debugText ∧
          ∀ fields rules labels,
            (Engine.mk r).run fields rules labels = (Engine.mk r').run fields rules labels := by
  intro r
  refine ⟨?_, fun _ => rfl, get?_builtin, r.contains_iff, fun _ => rfl, r.mem_names_iff, ?_,
    r.length_names, ?_⟩
  · intro name
    rw [get?_after]
    cases lastOn? name ops with
    | none => rfl
    | some op => cases op <;> rfl
  · exact r.pairwise_names.imp fun h => ⟨Text.bytes_lt_iff.mpr h, h⟩
  · intro start' ops' hlast hstart r'
    have hget : ∀ name, r.get? name = r'.get? name := by
      intro name
      rw [get?_after start ops, get?_after start' ops', ← hlast]
      cases h : lastOn? name ops with
      | none => exact hstart name h
      | some op => rfl
    have hnames := names_congr hget
    exact ⟨hnames, debugText_congr hnames, run_congr_get? hget⟩

/-- A name that is taken twice, and another one that is given up in between or before. -/
theorem lastOn?_determines_interleaved :
    let ops : List Operation :=
      [.register "zip" Validator.required, .remove "email", .register "zip" Validator.length]
    let ops' : List Operation := [.register "zip" Validator.length, .remove "email"]
    let r := builtin.value.after ops
    let r' := builtin.value.after ops'
    (∀ name, lastOn? name ops = lastOn? name ops') ∧ r.contains "zip" = true ∧
      r.contains "email" = false ∧ r.size = 4 ∧ r.debugText = r'.debugText := by
  intro ops ops' r r'
  have hlast : ∀ name, lastOn? name ops = lastOn? name ops' := by
    intro name
    by_cases hzip : name = "zip"
    · subst hzip
      rfl
    · by_cases hemail : name = "email"
      · subst hemail
        rfl
      · simp [ops, ops', lastOn?, Operation.name, Ne.symm hzip, Ne.symm hemail]
  have h := (lastOn?_determines builtin.value ops).2.2.2.2.2.2.2.2 builtin.value ops' hlast
    fun _ _ => rfl
  exact ⟨hlast, by decide +kernel, by decide +kernel, by decide +kernel, h.2.1⟩

end FormCheck.Registry
