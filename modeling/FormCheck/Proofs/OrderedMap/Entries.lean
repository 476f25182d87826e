import FormCheck.OrderedMap
import Mathlib.Data.List.Nodup
import Mathlib.Data.List.Perm.Subperm

/-!
# Maps and their entries

No name occurs twice in a map, so the map is its list of entries: a name has a value if and only if
the two are an entry, inserting the entries one after the other builds the map again, and maps are
equal if and only if they have the same entries in some order.

## Main results

* `OrderedMap.get?_eq_some_iff`: looking up a name finds its entry.
* `OrderedMap.ofList_entries`: a map is built again from its entries, order included.
* `OrderedMap.beq_iff_perm`: equality ignores the order of the entries, and nothing else.
-/

namespace FormCheck

namespace Entries

variable {α : Type} {es : List (String × α)}

theorem get?_eq_some_iff (h : (names es).Nodup) {name : String} {value : α} :
    get? name es = some value ↔ (name, value) ∈ es := by
  induction es with
  | nil => simp [get?]
  | cons e es ih =>
    obtain ⟨other, v⟩ := e
    obtain ⟨hfresh, hrest⟩ := List.nodup_cons.mp h
    by_cases hn : other = name
    · subst hn
      have hother : (other, value) ∉ es := fun hmem =>
        hfresh (List.mem_map.mpr ⟨_, hmem, rfl⟩)
      simp [get?, hother, eq_comm]
    · simp [get?, hn, Ne.symm hn, ih hrest]

theorem get?_eq_lookup (name : String) (es : List (String × α)) :
    get? name es = es.lookup name := by
  induction es with
  | nil => rfl
  | cons e es ih =>
    obtain ⟨other, v⟩ := e
    rw [get?, List.lookup_cons, ih]
    by_cases h : other = name
    · simp [h]
    · have hne : (name == other) = false := beq_eq_false_iff_ne.mpr (Ne.symm h)
      simp [h, hne]

theorem insert_of_notMem {name : String} (h : name ∉ names es) (value : α) :
    insert name value es = es ++ [(name, value)] := by
  induction es with
  | nil => rfl
  | cons e es ih =>
    rw [names_cons, List.mem_cons, not_or] at h
    simp [insert, Ne.symm h.1, ih h.2]

end Entries

namespace OrderedMap

variable {α : Type} {m n : OrderedMap α}

theorem get?_eq_some_iff {name : String} {value : α} :
    m.get? name = some value ↔ (name, value) ∈ m.entries :=
  Entries.get?_eq_some_iff m.nodup

theorem nodup_entries (m : OrderedMap α) : m.entries.Nodup := .of_map Prod.fst m.nodup

/-! ## Building a map -/

theorem ext_entries (h : m.entries = n.entries) : m = n := by
  cases m
  cases n
  congr

/-- Pairs with new names come behind the entries that are there. -/
theorem entries_foldl_insert {pairs : List (String × α)}
    (h : (Entries.names (m.entries ++ pairs)).Nodup) :
    (pairs.foldl (fun m e => m.insert e.1 e.2) m).entries = m.entries ++ pairs := by
  induction pairs generalizing m with
  | nil => simp
  | cons e pairs ih =>
    have hfresh : e.1 ∉ Entries.names m.entries := by
      rw [Entries.names, List.map_append, List.nodup_append] at h
      exact fun hmem => h.2.2 _ hmem _ List.mem_cons_self rfl
    have hinsert : (m.insert e.1 e.2).entries = m.entries ++ [e] :=
      Entries.insert_of_notMem hfresh e.2
    have happend : m.entries ++ e :: pairs = (m.insert e.1 e.2).entries ++ pairs := by
      rw [hinsert, List.append_assoc, List.singleton_append]
    rw [happend] at h ⊢
    exact ih h

/-- Pairs whose names are all different are the entries of their map. -/
theorem entries_ofList {pairs : List (String × α)} (h : (Entries.names pairs).Nodup) :
    (ofList pairs).entries = pairs :=
  entries_foldl_insert h

theorem ofList_entries (m : OrderedMap α) : ofList m.entries = m :=
  ext_entries (entries_ofList m.nodup)

/-! ## Equality -/

theorem beq_iff_perm [BEq α] [LawfulBEq α] : (m == n) = true ↔ m.entries.Perm n.entries := by
  have hbeq : (m == n) = true ↔
      m.entries.length = n.entries.length ∧ m.entries ⊆ n.entries := by
    show (m.size == n.size && m.entries.all fun e => n.get? e.1 == some e.2) = true ↔ _
    simp only [Bool.and_eq_true, beq_iff_eq, List.all_eq_true, get?_eq_some_iff, size]
    rfl
  rw [hbeq]
  constructor
  · rintro ⟨hlen, hsub⟩
    exact (List.subperm_of_subset m.nodup_entries hsub).perm_of_length_le (Nat.le_of_eq hlen.symm)
  · intro h
    exact ⟨h.length_eq, h.subset⟩

end OrderedMap

end FormCheck
