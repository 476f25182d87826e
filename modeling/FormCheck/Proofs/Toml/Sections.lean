import FormCheck.Proofs.OrderedMap.Entries
import FormCheck.Proofs.Toml.Spelling

/-!
# Documents of sections

A section is a header and the entries below it, all of them strings. A document of sections that
have different names denotes a table of tables, in the order in which they are written. A name that
comes twice in a section is an error.

## Main definitions

* `Toml.statementsOf`: the headers and entries of sections.
* `Toml.Table.ofSections`: the table that sections denote.

## Main results

* `Toml.Document.foldlM_add?_entries`, `Toml.Document.foldlM_add?_statementsOf`: what entries and
  sections add to a document.
* `Toml.parse?_of_spellsLines`: the table of a text that spells sections.
-/

namespace FormCheck.Toml

/-- The headers and entries of sections. -/
def statementsOf (sections : List (String × List (String × String))) : List Statement :=
  sections.flatMap fun s => .table [s.1] :: s.2.map fun e => .entry [e.1] (.string e.2)

/-- Sections whose headers are bare keys can be written. -/
theorem exists_spellsLines {ss : List (String × List (String × String))}
    (h : ∀ s ∈ ss, s.1.toList ≠ [] ∧ ∀ c ∈ s.1.toList, isBareChar c = true) :
    ∃ lines, List.Forall₂ SpellsLine (statementsOf ss) lines := by
  have hline : ∀ x ∈ statementsOf ss, ∃ line, SpellsLine x line := by
    intro x hx
    obtain ⟨s, hs, hx⟩ := List.mem_flatMap.mp hx
    obtain ⟨hne, hbare⟩ := h s hs
    rcases List.mem_cons.mp hx with rfl | hx
    · exact ⟨_, .header hne hbare⟩
    · obtain ⟨e, -, rfl⟩ := List.mem_map.mp hx
      exact exists_spellsLine_entry e.1 e.2
  generalize statementsOf ss = xs at hline
  induction xs with
  | nil => exact ⟨[], .nil⟩
  | cons x xs ih =>
    obtain ⟨hx, hxs⟩ := List.forall_mem_cons.mp hline
    obtain ⟨line, hx⟩ := hx
    obtain ⟨lines, hlines⟩ := ih hxs
    exact ⟨line :: lines, .cons hx hlines⟩

namespace Table

/-- The table of a section. -/
def ofPairs (es : List (String × String)) : Table where
  origin := .header
  entries := es.map fun e => (e.1, .string e.2)

def ofSections (ss : List (String × List (String × String))) : Table where
  origin := .header
  entries := ss.map fun s => (s.1, (ofPairs s.2).toValue)

/-! ## Tables -/

variable {t child : Table} {key : String}

theorem get?_eq_none_iff : t.get? key = none ↔ key ∉ Entries.names t.entries := by
  rw [get?, List.lookup_eq_none_iff, Entries.names, List.mem_map]
  grind

theorem get?_append (h : t.get? key = none) (v : Value) : (t.append key v).get? key = some v := by
  rw [get?] at h
  simp [get?, append, List.lookup_append, h]

theorem replace_append (h : t.get? key = none) (v w : Value) :
    (t.append key v).replace key w = t.append key w := by
  have hother : ∀ e ∈ t.entries, e.1 ≠ key := by
    intro e he hkey
    exact get?_eq_none_iff.mp h (List.mem_map.mpr ⟨e, he, hkey⟩)
  have hmap : (t.entries.map fun e => if e.1 = key then (key, w) else e) = t.entries :=
    (List.map_congr_left fun e he => if_neg (hother e he)).trans (List.map_id' _)
  simp [replace, append, hmap]

/-- Changing the last table of a table, if it has a header. -/
theorem within_append (h : t.get? key = none) (hc : child.origin = .header)
    (f : Table → Option Table) :
    within false [key] f (t.append key child.toValue) =
      (f child).map fun c => t.append key c.toValue := by
  obtain ⟨origin, entries⟩ := child
  obtain rfl : origin = .header := hc
  have hget := get?_append h (toValue ⟨.header, entries⟩)
  rw [within, hget, toValue]
  simp only [reduceCtorEq, Bool.false_eq_true, false_and, or_self, if_false, within,
    Option.bind_eq_bind, Option.pure_def]
  cases f ⟨.header, entries⟩ with
  | none => rfl
  | some c => simp [replace_append h]

/-! ## Sections -/

variable {es : List (String × String)} {ss : List (String × List (String × String))}

theorem names_ofPairs : Entries.names (ofPairs es).entries = Entries.names es := by
  simp [ofPairs, Entries.names, Function.comp_def]

theorem names_ofSections : Entries.names (ofSections ss).entries = Entries.names ss := by
  simp [ofSections, Entries.names, Function.comp_def]

theorem ofSections_append_singleton (name : String) :
    ofSections (ss ++ [(name, es)]) = (ofSections ss).append name (ofPairs es).toValue := by
  simp [ofSections, append]

/-- An entry comes behind the others, if its name is new. -/
theorem addEntry_ofPairs (name value : String) :
    addEntry [name] (.string value) (ofPairs es) =
      if name ∈ Entries.names es then none else some (ofPairs (es ++ [(name, value)])) := by
  have hadd : addEntry [name] (.string value) (ofPairs es) =
      if ((ofPairs es).get? name).isNone then some ((ofPairs es).append name (.string value))
      else none := rfl
  have happend : ofPairs (es ++ [(name, value)]) = (ofPairs es).append name (.string value) := by
    simp [ofPairs, append]
  have hnew : ((ofPairs es).get? name).isNone = true ↔ name ∉ Entries.names es := by
    rw [Option.isNone_iff_eq_none, get?_eq_none_iff, names_ofPairs]
  rw [hadd, happend]
  by_cases h : name ∈ Entries.names es
  · rw [if_neg (hnew.not.mpr (not_not_intro h)), if_pos h]
  · rw [if_pos (hnew.mpr h), if_neg h]

theorem openTable_ofSections {name : String} (h : name ∉ Entries.names ss) :
    openTable [name] (ofSections ss) = some (ofSections (ss ++ [(name, [])])) := by
  have hnew : (ofSections ss).get? name = none := by
    rw [get?_eq_none_iff, names_ofSections]
    exact h
  rw [ofSections_append_singleton, openTable, List.getLast?_singleton, Option.bind_eq_bind,
    Option.bind_some, List.dropLast_singleton, within, hnew]
  rfl

end Table

/-! ## Documents -/

namespace Document

variable {es : List (String × String)} {ss : List (String × List (String × String))} {name : String}

/-- A document in which sections have been read, the last of which has a name. -/
def ofSections (ss : List (String × List (String × String))) (name : String) : Document where
  root := .ofSections ss
  current := [name]

theorem add?_header {d : Document} (hd : d.root = .ofSections ss) (h : name ∉ Entries.names ss) :
    d.add? (.table [name]) = some (ofSections (ss ++ [(name, [])]) name) := by
  rw [add?, hd, Table.openTable_ofSections h]
  rfl

theorem add?_entry (h : name ∉ Entries.names ss) (key value : String) :
    (ofSections (ss ++ [(name, es)]) name).add? (.entry [key] (.string value)) =
      if key ∈ Entries.names es then none
      else some (ofSections (ss ++ [(name, es ++ [(key, value)])]) name) := by
  have hnew : (Table.ofSections ss).get? name = none := by
    rw [Table.get?_eq_none_iff, Table.names_ofSections]
    exact h
  rw [add?, ofSections, Table.ofSections_append_singleton, Table.within_append hnew rfl,
    Table.addEntry_ofPairs]
  split
  · rfl
  · rw [ofSections, Table.ofSections_append_singleton]
    rfl

/-- The entries of a section are added one behind the other, if all of them have names of their
own. -/
theorem foldlM_add?_entries (h : name ∉ Entries.names ss) (hes : (Entries.names es).Nodup)
    (pairs : List (String × String)) :
    (pairs.map fun e => .entry [e.1] (.string e.2)).foldlM add?
        (ofSections (ss ++ [(name, es)]) name) =
      if (Entries.names (es ++ pairs)).Nodup then
        some (ofSections (ss ++ [(name, es ++ pairs)]) name)
      else none := by
  -- Each entry moves from the ones to come to those that the section has.
  induction pairs generalizing es with
  | nil => simp [hes]
  | cons e pairs ih =>
    rw [List.map_cons, List.foldlM_cons, add?_entry h]
    by_cases hmem : e.1 ∈ Entries.names es
    · have hrepeated : ¬(Entries.names (es ++ e :: pairs)).Nodup := by
        rw [Entries.names, List.map_append, List.nodup_append]
        exact fun hnodup => hnodup.2.2 _ hmem _ List.mem_cons_self rfl
      rw [if_pos hmem, if_neg hrepeated]
      rfl
    · have hes : (Entries.names (es ++ [e])).Nodup := by
        rw [Entries.names, List.map_append, List.map_singleton, ← List.concat_eq_append]
        exact hes.concat hmem
      have hfold := ih hes
      rw [List.append_assoc, List.singleton_append] at hfold
      rw [if_neg hmem]
      exact hfold

/-- Sections with names of their own are added one behind the other, if the entries of each have
names of their own as well. -/
theorem foldlM_add?_statementsOf {d : Document} (hd : d.root = .ofSections ss)
    {more : List (String × List (String × String))} (h : (Entries.names (ss ++ more)).Nodup) :
    ((statementsOf more).foldlM add? d).map root =
      if ∀ s ∈ more, (Entries.names s.2).Nodup then some (.ofSections (ss ++ more)) else none := by
  -- The headers of the sections that are left are new in the document, as `h` says.
  induction more generalizing d ss with
  | nil => simp [statementsOf, hd]
  | cons s more ih =>
    have hfresh : s.1 ∉ Entries.names ss := by
      intro hmem
      rw [Entries.names, List.map_append, List.nodup_append] at h
      exact h.2.2 _ hmem _ List.mem_cons_self rfl
    have hnone : (Entries.names ([] : List (String × String))).Nodup := List.nodup_nil
    have hentries := foldlM_add?_entries hfresh hnone s.2
    rw [statementsOf, List.flatMap_cons, List.cons_append, List.foldlM_cons, add?_header hd hfresh,
      Option.bind_eq_bind, Option.bind_some, List.foldlM_append, hentries, List.nil_append]
    by_cases hs : (Entries.names s.2).Nodup
    · have hsections : (Entries.names (ss ++ [s] ++ more)).Nodup := by
        rwa [List.append_assoc, List.singleton_append]
      have hroot : (ofSections (ss ++ [s]) s.1).root = .ofSections (ss ++ [s]) := rfl
      have hmore := ih hroot hsections
      rw [List.append_assoc, List.singleton_append] at hmore
      rw [if_pos hs]
      simp only [List.forall_mem_cons, hs, true_and]
      exact hmore
    · have hrepeated : ¬∀ s' ∈ s :: more, (Entries.names s'.2).Nodup := fun hall =>
        hs (hall s List.mem_cons_self)
      rw [if_neg hs, if_neg hrepeated]
      rfl

end Document

/-- The table of a text that spells sections, unless a name comes twice in one of them. -/
theorem parse?_of_spellsLines {ss : List (String × List (String × String))} {text : String}
    {lines : List (List Char)} (h : List.Forall₂ SpellsLine (statementsOf ss) lines)
    (htext : text.toList = lines.flatten) (hss : (Entries.names ss).Nodup) :
    parse? text =
      if ∀ s ∈ ss, (Entries.names s.2).Nodup then some (.ofSections ss) else none := by
  have hstatements := statements?_of_spellsLines h
  have hmark : dropByteOrderMark lines.flatten = lines.flatten := by
    generalize statementsOf ss = xs at h
    cases h with
    | nil => rfl
    | cons hline =>
      obtain ⟨c, s, rfl, rfl | rfl⟩ := exists_cons_of_spellsLine hline <;> rfl
  have hempty : ({} : Document).root = .ofSections [] := rfl
  have hfold := Document.foldlM_add?_statementsOf hempty hss
  rw [List.nil_append, Option.map_eq_bind] at hfold
  rw [parse?, htext, hmark, hstatements]
  exact hfold

end FormCheck.Toml
