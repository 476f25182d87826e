import FormCheck.Regex

/-!
# Accepting the texts of a regular expression

The matcher follows an expression from a set of places in a text to the places at which its matches
end. A place is the number of characters before it, and a set of places is an ascending list.

## Main definitions

* `Regex.union`: the union of two sets of places.
* `Regex.ends`: the places at which matches end that start in a set of places.
* `Regex.accepts`: whether the whole text matches.

## Main results

* `Regex.mem_ends`: what `Regex.ends` finds.
* `Regex.accepts_iff`: a text is accepted if and only if the expression describes it.
-/

namespace FormCheck.Regex

/-! ## Sets of places -/

/-- The places of a set before `i`, then `i`, then what `more` makes of the places after it. -/
def insertThen (i : Nat) (more : List Nat → List Nat) : List Nat → List Nat
  | [] => i :: more []
  | j :: js =>
    if j < i then j :: insertThen i more js
    else if j = i then i :: more js
    else i :: more (j :: js)

def union : List Nat → List Nat → List Nat
  | [], js => js
  | i :: is, js => insertThen i (union is) js

/-- The places of the first set without those of the second. -/
def diff : List Nat → List Nat → List Nat
  | [], _ => []
  | j :: js, is =>
    let is := is.dropWhile (· < j)
    if is.head? = some j then diff js is else j :: diff js is

theorem mem_insertThen {i j : Nat} {more : List Nat → List Nat} {is : List Nat}
    (h : ∀ js, j ∈ more js ↔ j ∈ is ∨ j ∈ js) (js : List Nat) :
    j ∈ insertThen i more js ↔ j ∈ i :: is ∨ j ∈ js := by
  induction js with
  | nil => simp [insertThen, h]
  | cons k js ih =>
    unfold insertThen
    split
    · rw [List.mem_cons, ih, List.mem_cons]
      grind
    · split <;> simp only [List.mem_cons, h] <;> grind

theorem mem_union {is js : List Nat} {j : Nat} : j ∈ union is js ↔ j ∈ is ∨ j ∈ js := by
  induction is generalizing js with
  | nil => simp [union]
  | cons i is ih => exact mem_insertThen (fun _ => ih) js

theorem mem_of_mem_diff {is js : List Nat} {j : Nat} (h : j ∈ diff js is) : j ∈ js := by
  induction js generalizing is with
  | nil => simp [diff] at h
  | cons k js ih =>
    simp only [diff] at h
    split at h
    · exact List.mem_cons_of_mem k (ih h)
    · rcases List.mem_cons.mp h with rfl | h
      · exact List.mem_cons_self
      · exact List.mem_cons_of_mem k (ih h)

theorem mem_diff_or_mem {is js : List Nat} {j : Nat} (h : j ∈ js) : j ∈ diff js is ∨ j ∈ is := by
  induction js generalizing is with
  | nil => simp at h
  | cons k js ih =>
    have hsub := (List.dropWhile_suffix (· < k) (l := is)).subset
    simp only [diff]
    rcases List.mem_cons.mp h with rfl | h
    · split
      · next hj => exact .inr (hsub (List.mem_of_mem_head? hj))
      · exact .inl List.mem_cons_self
    · split
      · exact (ih h).imp_right fun h => hsub h
      · exact (ih h).imp (List.mem_cons_of_mem k) fun h => hsub h

/-! ## The matcher -/

/-- The places that at most `n` steps lead to. A step that stays among the places where the last
one ended leads nowhere new. -/
def reach (step : List Nat → List Nat) : Nat → List Nat → List Nat
  | 0, is => is
  | n + 1, is => if is.isEmpty then [] else union is (reach step n (diff (step is) is))

/-- The places at which matches end that start at one of `is`. A repetition takes no more steps
than the text has characters, because steps that stay where they are can be left out. -/
def ends (t : Array Char) : Regex → List Nat → List Nat
  | empty, is => is
  | char k, is => (is.filter fun i => t[i]?.any k.contains).map (· + 1)
  | seq r s, is => ends t s (ends t r is)
  | alt r s, is => union (ends t r is) (ends t s is)
  | star r, is => reach (ends t r) t.size is

/-- Whether the whole text matches. -/
def accepts (r : Regex) (s : List Char) : Bool := (ends s.toArray r [0]).contains s.length

/-! ## Correctness -/

/-- A match of a repetition is empty or starts with a match that is not. -/
theorem Matches.eq_nil_or_split {r : Regex} {u : List Char} (h : Matches (star r) u) :
    u = [] ∨ ∃ a b, a ≠ [] ∧ u = a ++ b ∧ Matches r a ∧ Matches (star r) b := by
  generalize hq : star r = q at h
  induction h with
  | starNil => exact .inl rfl
  | @starCons r' a b ha hb _ ih =>
    obtain rfl : r = r' := by injection hq
    by_cases hne : a = []
    · subst hne
      exact ih rfl
    · exact .inr ⟨a, b, hne, rfl, ha, hb⟩
  | _ => cases hq

/-- Whether a match in `s` leads from the place `i` to the place `j`. -/
def MatchesBetween (r : Regex) (s : List Char) (i j : Nat) : Prop :=
  ∃ u, Matches r u ∧ u <+: s.drop i ∧ i + u.length = j

theorem append_isPrefix_drop {s u v : List Char} {i : Nat} :
    u ++ v <+: s.drop i ↔ u <+: s.drop i ∧ v <+: s.drop (i + u.length) := by
  constructor
  · rintro ⟨w, hw⟩
    refine ⟨⟨v ++ w, by rw [← hw, List.append_assoc]⟩, ⟨w, ?_⟩⟩
    rw [← List.drop_drop, ← hw, List.append_assoc, List.drop_left]
  · rintro ⟨⟨x, hx⟩, ⟨w, hw⟩⟩
    rw [← List.drop_drop, ← hx, List.drop_left] at hw
    exact ⟨w, by rw [← hx, ← hw, List.append_assoc]⟩

theorem matchesBetween_empty {s : List Char} {i j : Nat} :
    MatchesBetween empty s i j ↔ i = j := by
  constructor
  · rintro ⟨u, hu, -, rfl⟩
    cases hu
    rfl
  · rintro rfl
    exact ⟨[], .empty, List.nil_prefix, rfl⟩

theorem matchesBetween_char {k : CharClass} {s : List Char} {i j : Nat} :
    MatchesBetween (char k) s i j ↔ s[i]?.any k.contains = true ∧ i + 1 = j := by
  constructor
  · rintro ⟨u, hu, ⟨w, hw⟩, rfl⟩
    cases hu with
    | @char _ c h =>
      have : s[i]? = some c := by
        have := congrArg (·[0]?) hw
        simpa using this.symm
      simp [this, h]
  · rintro ⟨h, rfl⟩
    cases hc : s[i]? with
    | none => simp [hc] at h
    | some c =>
      obtain ⟨hi, rfl⟩ := List.getElem?_eq_some_iff.mp hc
      rw [hc] at h
      exact ⟨[s[i]], .char h, ⟨s.drop (i + 1), (List.drop_eq_getElem_cons hi).symm⟩, rfl⟩

theorem matchesBetween_seq {r₁ r₂ : Regex} {s : List Char} {i j : Nat} :
    MatchesBetween (seq r₁ r₂) s i j ↔
      ∃ m, MatchesBetween r₁ s i m ∧ MatchesBetween r₂ s m j := by
  constructor
  · rintro ⟨w, hw, hp, rfl⟩
    cases hw with
    | @seq _ _ u v hu hv =>
      obtain ⟨hp₁, hp₂⟩ := append_isPrefix_drop.mp hp
      exact ⟨_, ⟨u, hu, hp₁, rfl⟩, ⟨v, hv, hp₂, by rw [List.length_append, Nat.add_assoc]⟩⟩
  · rintro ⟨m, ⟨u, hu, hp₁, rfl⟩, ⟨v, hv, hp₂, rfl⟩⟩
    exact ⟨u ++ v, .seq hu hv, append_isPrefix_drop.mpr ⟨hp₁, hp₂⟩,
      by rw [List.length_append, Nat.add_assoc]⟩

theorem matchesBetween_alt {r₁ r₂ : Regex} {s : List Char} {i j : Nat} :
    MatchesBetween (alt r₁ r₂) s i j ↔
      MatchesBetween r₁ s i j ∨ MatchesBetween r₂ s i j := by
  constructor
  · rintro ⟨u, hu, hp⟩
    cases hu with
    | altLeft hu => exact .inl ⟨u, hu, hp⟩
    | altRight hu => exact .inr ⟨u, hu, hp⟩
  · rintro (⟨u, hu, hp⟩ | ⟨u, hu, hp⟩)
    · exact ⟨u, .altLeft hu, hp⟩
    · exact ⟨u, .altRight hu, hp⟩

section Reach

variable {r : Regex} {s : List Char} {step : List Nat → List Nat}
  (hstep : ∀ is j, j ∈ step is ↔ ∃ i ∈ is, MatchesBetween r s i j)

include hstep

theorem matchesBetween_of_mem_reach {n : Nat} {is : List Nat} {j : Nat}
    (h : j ∈ reach step n is) : ∃ i ∈ is, MatchesBetween (star r) s i j := by
  induction n generalizing is with
  | zero => exact ⟨j, h, [], .starNil, List.nil_prefix, rfl⟩
  | succ n ih =>
    unfold reach at h
    split at h
    · simp at h
    · rcases mem_union.mp h with h | h
      · exact ⟨j, h, [], .starNil, List.nil_prefix, rfl⟩
      · obtain ⟨m, hm, v, hv, hp₂, rfl⟩ := ih h
        obtain ⟨i, hi, u, hu, hp₁, rfl⟩ := (hstep is m).mp (mem_of_mem_diff hm)
        exact ⟨i, hi, u ++ v, .starCons hu hv, append_isPrefix_drop.mpr ⟨hp₁, hp₂⟩,
          by rw [List.length_append, Nat.add_assoc]⟩

theorem mem_reach_of_matches {n : Nat} {is : List Nat} {i : Nat} {u : List Char} (hi : i ∈ is)
    (hu : Matches (star r) u) (hp : u <+: s.drop i) (hn : u.length ≤ n) :
    i + u.length ∈ reach step n is := by
  induction n generalizing is i u with
  | zero =>
    obtain rfl : u = [] := List.eq_nil_of_length_eq_zero (Nat.le_zero.mp hn)
    exact hi
  | succ n ih =>
    unfold reach
    rw [if_neg (by simpa using List.ne_nil_of_mem hi)]
    generalize hlen : u.length = k at hn
    induction k using Nat.strongRecOn generalizing i u with
    | ind k ihk =>
      subst hlen
      rcases hu.eq_nil_or_split with rfl | ⟨a, b, hne, rfl, ha, hb⟩
      · exact mem_union.mpr (.inl hi)
      · obtain ⟨hp₁, hp₂⟩ := append_isPrefix_drop.mp hp
        have hm : i + a.length ∈ step is := (hstep is _).mpr ⟨i, hi, a, ha, hp₁, rfl⟩
        have hlen := List.length_pos_iff.mpr hne
        rw [List.length_append] at hn ihk ⊢
        rw [← Nat.add_assoc]
        rcases mem_diff_or_mem hm with hm | hm
        · exact mem_union.mpr (.inr (ih hm hb hp₂ (by omega)))
        · exact ihk b.length (by omega) hm hb hp₂ rfl (by omega)

theorem mem_reach {n : Nat} (hn : s.length ≤ n) {is : List Nat} {j : Nat} :
    j ∈ reach step n is ↔ ∃ i ∈ is, MatchesBetween (star r) s i j := by
  constructor
  · exact matchesBetween_of_mem_reach hstep
  · rintro ⟨i, hi, u, hu, hp, rfl⟩
    have hlen := hp.length_le
    rw [List.length_drop] at hlen
    exact mem_reach_of_matches hstep hi hu hp (by omega)

end Reach

theorem mem_ends {t : Array Char} {r : Regex} {is : List Nat} {j : Nat} :
    j ∈ ends t r is ↔ ∃ i ∈ is, MatchesBetween r t.toList i j := by
  induction r generalizing is j with
  | empty => simp [ends, matchesBetween_empty]
  | char k =>
    simp only [ends, matchesBetween_char, List.mem_map, List.mem_filter, Array.getElem?_toList,
      and_assoc]
  | seq r₁ r₂ ih₁ ih₂ =>
    simp only [ends, ih₁, ih₂, matchesBetween_seq]
    grind
  | alt r₁ r₂ ih₁ ih₂ =>
    simp only [ends, ih₁, ih₂, matchesBetween_alt, mem_union]
    grind
  | star r ih => exact mem_reach (fun _ _ => ih) (Nat.le_of_eq Array.length_toList)

theorem accepts_iff {r : Regex} {s : List Char} : r.accepts s = true ↔ Matches r s := by
  simp only [accepts, List.contains_iff_mem, mem_ends, List.mem_singleton, exists_eq_left]
  constructor
  · rintro ⟨u, hu, hp, hlen⟩
    rw [List.drop_zero] at hp
    exact hp.eq_of_length (by simpa using hlen) ▸ hu
  · exact fun h => ⟨s, h, by simp, by simp⟩

end FormCheck.Regex
