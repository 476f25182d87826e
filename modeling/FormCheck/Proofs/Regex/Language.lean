import FormCheck.Regex
import Mathlib.Data.List.Forall2

/-!
# The texts that composed expressions describe

One law for each way of composing regular expressions.

## Main results

* `Regex.matches_times_char_iff`, `Regex.matches_upTo_char_iff`: some characters of one class.
* `Regex.matches_star_iff`, `Regex.matches_plus_iff`: repetitions.
* `Regex.matches_chain_iff`: a chain describes the texts that fall into slices, one for each of
  its expressions.
-/

namespace FormCheck.Regex

theorem matches_empty_iff {s : List Char} : Matches empty s ↔ s = [] := by
  constructor
  · rintro ⟨⟩
    rfl
  · rintro rfl
    exact .empty

theorem matches_char_iff {k : CharClass} {s : List Char} :
    Matches (char k) s ↔ ∃ c, k.contains c = true ∧ s = [c] := by
  constructor
  · rintro ⟨⟩
    exact ⟨_, ‹_›, rfl⟩
  · rintro ⟨c, h, rfl⟩
    exact .char h

theorem matches_seq_iff {r₁ r₂ : Regex} {s : List Char} :
    Matches (seq r₁ r₂) s ↔ ∃ u v, Matches r₁ u ∧ Matches r₂ v ∧ s = u ++ v := by
  constructor
  · rintro ⟨⟩
    exact ⟨_, _, ‹_›, ‹_›, rfl⟩
  · rintro ⟨u, v, hu, hv, rfl⟩
    exact .seq hu hv

theorem matches_alt_iff {r₁ r₂ : Regex} {s : List Char} :
    Matches (alt r₁ r₂) s ↔ Matches r₁ s ∨ Matches r₂ s := by
  constructor
  · intro h
    cases h with
    | altLeft h => exact .inl h
    | altRight h => exact .inr h
  · rintro (h | h)
    · exact .altLeft h
    · exact .altRight h

theorem matches_opt_iff {r : Regex} {s : List Char} : Matches r.opt s ↔ Matches r s ∨ s = [] := by
  rw [opt, matches_alt_iff, matches_empty_iff]

theorem matches_exactly_iff {c : Char} {s : List Char} : Matches (exactly c) s ↔ s = [c] := by
  simp [exactly, matches_char_iff, CharClass.contains_oneOf]

theorem matches_times_char_iff {k : CharClass} {n : Nat} {s : List Char} :
    Matches ((char k).times n) s ↔ s.length = n ∧ ∀ c ∈ s, k.contains c = true := by
  induction n generalizing s with
  | zero =>
    rw [times, matches_empty_iff, List.length_eq_zero_iff]
    exact ⟨fun h => by simp [h], And.left⟩
  | succ n ih =>
    simp only [times, matches_seq_iff, matches_char_iff, ih]
    constructor
    · rintro ⟨_, v, ⟨c, hc, rfl⟩, ⟨rfl, hv⟩, rfl⟩
      simpa [hc] using hv
    · rintro ⟨hlen, hs⟩
      obtain ⟨c, v, rfl⟩ := List.exists_cons_of_length_eq_add_one hlen
      rw [List.forall_mem_cons] at hs
      exact ⟨[c], v, ⟨c, hs.1, rfl⟩, ⟨by simpa using hlen, hs.2⟩, rfl⟩

theorem matches_upTo_char_iff {k : CharClass} {n : Nat} {s : List Char} :
    Matches ((char k).upTo n) s ↔ s.length ≤ n ∧ ∀ c ∈ s, k.contains c = true := by
  induction n generalizing s with
  | zero =>
    rw [upTo, matches_empty_iff, Nat.le_zero, List.length_eq_zero_iff]
    exact ⟨fun h => by simp [h], And.left⟩
  | succ n ih =>
    simp only [upTo, matches_opt_iff, matches_seq_iff, matches_char_iff, ih]
    constructor
    · rintro (⟨_, v, ⟨c, hc, rfl⟩, ⟨hlen, hv⟩, rfl⟩ | rfl)
      · simpa [hc] using And.intro hlen hv
      · simp
    · rintro ⟨hlen, hs⟩
      cases s with
      | nil => exact .inr rfl
      | cons c v =>
        rw [List.forall_mem_cons] at hs
        exact .inl ⟨[c], v, ⟨c, hs.1, rfl⟩, ⟨by simpa using hlen, hs.2⟩, rfl⟩

section Repetition

variable {α : Type} {r : Regex} {f : α → List Char} {P : α → Prop}

/-- If the texts of an expression are those of some values, the texts of its repetition are those of
lists of such values. -/
theorem matches_star_iff (h : ∀ u, Matches r u ↔ ∃ a, P a ∧ u = f a) {s : List Char} :
    Matches (star r) s ↔ ∃ as : List α, (∀ a ∈ as, P a) ∧ s = as.flatMap f := by
  constructor
  · intro hs
    generalize hq : star r = q at hs
    induction hs with
    | starNil => exact ⟨[], by simp, rfl⟩
    | starCons hu _ _ ih =>
      injection hq with hq
      subst hq
      obtain ⟨a, ha, rfl⟩ := (h _).mp hu
      obtain ⟨as, has, rfl⟩ := ih rfl
      exact ⟨a :: as, List.forall_mem_cons.mpr ⟨ha, has⟩, rfl⟩
    | _ => cases hq
  · rintro ⟨as, has, rfl⟩
    induction as with
    | nil => exact .starNil
    | cons a as ih =>
      obtain ⟨ha, has⟩ := List.forall_mem_cons.mp has
      exact .starCons ((h _).mpr ⟨a, ha, rfl⟩) (ih has)

theorem matches_plus_iff (h : ∀ u, Matches r u ↔ ∃ a, P a ∧ u = f a) {s : List Char} :
    Matches r.plus s ↔ ∃ as : List α, as ≠ [] ∧ (∀ a ∈ as, P a) ∧ s = as.flatMap f := by
  rw [plus, matches_seq_iff]
  constructor
  · rintro ⟨u, v, hu, hv, rfl⟩
    obtain ⟨a, ha, rfl⟩ := (h u).mp hu
    obtain ⟨as, has, rfl⟩ := (matches_star_iff h).mp hv
    exact ⟨a :: as, by simp, List.forall_mem_cons.mpr ⟨ha, has⟩, rfl⟩
  · rintro ⟨as, hne, has, rfl⟩
    obtain ⟨a, as, rfl⟩ := List.exists_cons_of_ne_nil hne
    obtain ⟨ha, has⟩ := List.forall_mem_cons.mp has
    exact ⟨f a, as.flatMap f, (h _).mpr ⟨a, ha, rfl⟩, (matches_star_iff h).mpr ⟨as, has, rfl⟩,
      rfl⟩

end Repetition

theorem matches_plus_char_iff {k : CharClass} {s : List Char} :
    Matches (char k).plus s ↔ s ≠ [] ∧ ∀ c ∈ s, k.contains c = true := by
  rw [matches_plus_iff fun _ => matches_char_iff]
  constructor
  · rintro ⟨cs, hne, hcs, rfl⟩
    simpa [List.flatMap_singleton'] using And.intro hne hcs
  · rintro ⟨hne, hs⟩
    exact ⟨s, hne, hs, by simp⟩

theorem matches_chain_iff {rs : List Regex} {s : List Char} :
    Matches (chain rs) s ↔ ∃ us, List.Forall₂ Matches rs us ∧ us.flatten = s := by
  induction rs generalizing s with
  | nil => simp [chain, matches_empty_iff, eq_comm]
  | cons r rs ih =>
    rw [show chain (r :: rs) = seq r (chain rs) from rfl, matches_seq_iff]
    constructor
    · rintro ⟨u, v, hu, hv, rfl⟩
      obtain ⟨us, hus, rfl⟩ := ih.mp hv
      exact ⟨u :: us, .cons hu hus, rfl⟩
    · rintro ⟨_, hus, rfl⟩
      cases hus with
      | cons hu hus => exact ⟨_, _, hu, ih.mpr ⟨_, hus, rfl⟩, rfl⟩

end FormCheck.Regex
