import FormCheck.Proofs.OrderedMap.Entries
import Mathlib.Data.List.Induction

/-!
# Maps over time

A map is changed by inserting a value and by collecting pairs, which starts it anew. However it came
about, it lists the names in the order in which they first came since then, each of them once and
with the value that came last.

## Main definitions

* `Entries.last?`: the value that pairs give a name last.
* `Entries.Lists`: whether entries list what pairs give.
* `OrderedMap.Change`, `OrderedMap.after`: changing a map.
* `OrderedMap.given`: the pairs that changes give.

## Main results

* `OrderedMap.lists_ofList`: a map lists what the pairs give that it is built from.
* `OrderedMap.after_eq_ofList`: changed maps are built from the pairs that the changes give.
* `OrderedMap.beq_iff_get?`: maps are equal if every name has the same value in both.
-/

namespace FormCheck

/-! ## Lists of pairs -/

namespace Entries

variable {α : Type}

/-- The value that was given last for a name. -/
def last? (name : String) (pairs : List (String × α)) : Option α := pairs.reverse.lookup name

/-- Whether entries list what pairs give: each name once, in the order in which the names first
came, with the value that came last. -/
structure Lists (entries pairs : List (String × α)) : Prop where
  names : Entries.names entries = (Entries.names pairs).eraseDups
  nodup : (Entries.names entries).Nodup
  values : ∀ e ∈ entries, last? e.1 pairs = some e.2

theorem last?_append_singleton (name : String) (pairs : List (String × α)) (e : String × α) :
    last? name (pairs ++ [e]) = if name = e.1 then some e.2 else last? name pairs := by
  rw [last?, List.reverse_append, List.reverse_singleton, List.singleton_append,
    List.lookup_cons]
  by_cases h : name = e.1
  · simp [h]
  · have hne : (name == e.1) = false := beq_eq_false_iff_ne.mpr h
    rw [hne, if_neg h, last?]

theorem mem_of_last? {name : String} {value : α} {pairs : List (String × α)}
    (h : last? name pairs = some value) : (name, value) ∈ pairs := by
  obtain ⟨before, rest, hpairs, -⟩ := List.lookup_eq_some_iff.mp h
  exact List.mem_reverse.mp (hpairs ▸ List.mem_append_cons_self)

end Entries

namespace OrderedMap

variable {α : Type} {m n : OrderedMap α}

theorem get?_eq_lookup (m : OrderedMap α) (name : String) :
    m.get? name = m.entries.lookup name :=
  Entries.get?_eq_lookup name m.entries

/-! ## Maps of pairs -/

theorem ofList_append_singleton (pairs : List (String × α)) (e : String × α) :
    ofList (pairs ++ [e]) = (ofList pairs).insert e.1 e.2 :=
  List.foldl_concat ..

theorem get?_ofList (pairs : List (String × α)) (name : String) :
    (ofList pairs).get? name = Entries.last? name pairs := by
  induction pairs using List.reverseRecOn with
  | nil => rfl
  | append_singleton pairs e ih =>
    rw [ofList_append_singleton, get?_insert, Entries.last?_append_singleton, ih]

theorem names_ofList (pairs : List (String × α)) :
    (ofList pairs).names = (Entries.names pairs).eraseDups := by
  induction pairs using List.reverseRecOn with
  | nil => rfl
  | append_singleton pairs e ih =>
    have happend : Entries.names (pairs ++ [e]) = Entries.names pairs ++ [e.1] := List.map_append
    rw [ofList_append_singleton, names_insert, ih, happend, List.eraseDups_append]
    by_cases h : e.1 ∈ Entries.names pairs
    · have hremove : [e.1].removeAll (Entries.names pairs) = [] := by simp [List.removeAll, h]
      rw [if_pos (List.mem_eraseDups.mpr h), hremove, List.eraseDups_nil, List.append_nil]
    · have hremove : [e.1].removeAll (Entries.names pairs) = [e.1] := by simp [List.removeAll, h]
      rw [if_neg (mt List.mem_eraseDups.mp h), hremove]
      rfl

theorem lists_ofList (pairs : List (String × α)) : Entries.Lists (ofList pairs).entries pairs where
  names := names_ofList pairs
  nodup := (ofList pairs).nodup
  values e he := by rw [← get?_ofList, get?_eq_some_iff.mpr he]

/-! ## Changes -/

/-- What can be done to a map. -/
inductive Change (α : Type) where
  | insert (name : String) (value : α)
  /-- Starts anew with pairs. -/
  | collect (pairs : List (String × α))

namespace Change

def apply : Change α → OrderedMap α → OrderedMap α
  | insert name value, m => m.insert name value
  | collect pairs, _ => .ofList pairs

/-- The pairs that were given since pairs were collected, those included. -/
def give : Change α → List (String × α) → List (String × α)
  | insert name value, given => given ++ [(name, value)]
  | collect pairs, _ => pairs

end Change

/-- The map after changes of the empty one, the first of them first. -/
def after (changes : List (Change α)) : OrderedMap α := changes.foldl (fun m c => c.apply m) empty

def given (changes : List (Change α)) : List (String × α) :=
  changes.foldl (fun pairs c => c.give pairs) []

theorem apply_ofList (c : Change α) (pairs : List (String × α)) :
    c.apply (ofList pairs) = ofList (c.give pairs) := by
  cases c with
  | insert name value => exact (ofList_append_singleton pairs (name, value)).symm
  | collect => rfl

theorem after_eq_ofList (changes : List (Change α)) : after changes = ofList (given changes) := by
  induction changes using List.reverseRecOn with
  | nil => rfl
  | append_singleton changes c ih =>
    have hafter : after (changes ++ [c]) = c.apply (after changes) := List.foldl_concat ..
    have hgiven : given (changes ++ [c]) = c.give (given changes) := List.foldl_concat ..
    rw [hafter, hgiven, ih, apply_ofList]

theorem lists_after (changes : List (Change α)) :
    Entries.Lists (after changes).entries (given changes) := by
  rw [after_eq_ofList]
  exact lists_ofList (given changes)

/-! ## Equality -/

theorem beq_iff_get? [BEq α] [LawfulBEq α] :
    (m == n) = true ↔ ∀ name, m.get? name = n.get? name := by
  rw [beq_iff_perm, List.perm_ext_iff_of_nodup m.nodup_entries n.nodup_entries]
  constructor
  · intro h name
    refine Option.ext fun value => ?_
    rw [get?_eq_some_iff, get?_eq_some_iff, h]
  · rintro h ⟨name, value⟩
    rw [← get?_eq_some_iff, ← get?_eq_some_iff, h]

end OrderedMap

end FormCheck
