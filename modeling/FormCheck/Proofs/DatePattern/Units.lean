import FormCheck.Proofs.DatePattern.Grammar
import FormCheck.Validator.Builtin
import Mathlib.Data.List.DropRight

/-!
# When a pattern can be read

Read from left to right, a pattern is a sequence of units: a backslash with the character behind it,
or a single character. Only single characters can be errors, and the first of them counts. Whether a
character is single is decided by the backslashes directly before it: if their number is odd, the
last of them escapes the character.

## Main definitions

* `PatternUnit`, `units`: the units of a pattern.
* `tokenLetters`: the letters that stand for tokens.
* `PatternUnit.error?`: what is wrong with a unit.
* `backslashesAtEnd`: the number of backslashes with which a text ends.

## Main results

* `single_mem_units_iff`: which characters are units of their own.
* `compilePieces_eq_error_iff`: the error of a pattern is that of its first unit with one.
* `compile_outcome`: which patterns can be read, and which values pass where one cannot.
-/

namespace FormCheck.DatePattern

/-! ## Units -/

inductive PatternUnit where
  /-- A backslash with the character behind it. -/
  | escaped (c : Char)
  | single (c : Char)
deriving DecidableEq, Repr

def PatternUnit.spelling : PatternUnit → List Char
  | escaped c => ['\\', c]
  | single c => [c]

/-- The units of a text. A backslash is single only if nothing follows it. -/
def units : List Char → List PatternUnit
  | [] => []
  | '\\' :: c :: s => .escaped c :: units s
  | c :: s => .single c :: units s

theorem units_single {c : Char} {s : List Char} (h : c = '\\' → s = []) :
    units (c :: s) = .single c :: units s := by
  cases s with
  | nil => simp [units]
  | cons d s =>
    have hc : c ≠ '\\' := fun hc => List.cons_ne_nil d s (h hc)
    simp [units, hc]

/-- A text starts with an escaped character, or with a single one. -/
theorem units_cases {motive : List Char → Prop} (nil : motive [])
    (escaped : ∀ c s, motive s → motive ('\\' :: c :: s))
    (single : ∀ c s, (c = '\\' → s = []) → motive s → motive (c :: s)) (s : List Char) :
    motive s := by
  induction s using units.induct with
  | case1 => exact nil
  | case2 c s ih => exact escaped c s ih
  | case3 c s hesc ih =>
    refine single c s ?_ ih
    rintro rfl
    cases s with
    | nil => rfl
    | cons d s => exact absurd rfl (hesc d s rfl)

theorem flatMap_spelling_units (s : List Char) : (units s).flatMap PatternUnit.spelling = s := by
  induction s using units_cases with
  | nil => rfl
  | escaped c s ih => simp [units, PatternUnit.spelling, ih]
  | single c s h ih => simp [units_single h, PatternUnit.spelling, ih]

/-! ## Backslashes before a character -/

def backslashesAtEnd (s : List Char) : Nat := (s.rtakeWhile (· == '\\')).length

theorem backslashesAtEnd_concat_backslash (s : List Char) :
    backslashesAtEnd (s ++ ['\\']) = backslashesAtEnd s + 1 := by
  rw [backslashesAtEnd, List.rtakeWhile_concat_pos _ _ _ (by rfl), List.length_append]
  rfl

theorem backslashesAtEnd_concat_of_ne {c : Char} (hc : c ≠ '\\') (s : List Char) :
    backslashesAtEnd (s ++ [c]) = 0 := by
  rw [backslashesAtEnd, List.rtakeWhile_concat_neg _ _ _ (by simpa using hc), List.length_nil]

/-- A character in front counts only if it is a backslash and only backslashes follow it. -/
theorem backslashesAtEnd_cons (c : Char) (s : List Char) :
    backslashesAtEnd (c :: s) =
      backslashesAtEnd s + if (c :: s).all (· == '\\') then 1 else 0 := by
  induction s using List.reverseRecOn with
  | nil =>
    by_cases hc : c = '\\'
    · simp [hc, backslashesAtEnd, List.rtakeWhile]
    · simp [hc, backslashesAtEnd, List.rtakeWhile]
  | append_singleton s d ih =>
    rw [← List.cons_append]
    by_cases hd : d = '\\'
    · subst hd
      have hall : (c :: s ++ ['\\']).all (· == '\\') = (c :: s).all (· == '\\') := by simp
      rw [hall, backslashesAtEnd_concat_backslash, backslashesAtEnd_concat_backslash, ih]
      omega
    · rw [backslashesAtEnd_concat_of_ne hd, backslashesAtEnd_concat_of_ne hd]
      simp [hd]

theorem backslashesAtEnd_cons_of_ne {c : Char} (hc : c ≠ '\\') (s : List Char) :
    backslashesAtEnd (c :: s) = backslashesAtEnd s := by
  simp [backslashesAtEnd_cons, hc]

/-- An escape in front does not change the parity. -/
theorem backslashesAtEnd_escape (c : Char) (s : List Char) :
    backslashesAtEnd ('\\' :: c :: s) % 2 = backslashesAtEnd s % 2 := by
  have hall : ('\\' :: c :: s).all (· == '\\') = (c :: s).all (· == '\\') := by simp
  rw [backslashesAtEnd_cons, backslashesAtEnd_cons, hall]
  split <;> omega

/-- A character is a unit of its own if an even number of backslashes stands directly before it, and
if it is no backslash with a character behind it. -/
theorem single_mem_units_iff {c : Char} {s : List Char} :
    .single c ∈ units s ↔
      ∃ before after, s = before ++ c :: after ∧ backslashesAtEnd before % 2 = 0 ∧
        (c = '\\' → after = []) := by
  induction s using units_cases with
  | nil => simp [units]
  | escaped d s ih =>
    rw [units, List.mem_cons, ih]
    constructor
    · rintro (h | ⟨before, after, rfl, hbefore, hafter⟩)
      · cases h
      · exact ⟨'\\' :: d :: before, after, rfl, by rw [backslashesAtEnd_escape, hbefore], hafter⟩
    · rintro ⟨before, after, hs, hbefore, hafter⟩
      match before with
      | [] =>
        obtain ⟨rfl, rfl⟩ := List.cons_eq_cons.mp hs
        cases hafter rfl
      | [b] =>
        obtain ⟨rfl, -⟩ := List.cons_eq_cons.mp hs
        cases hbefore
      | b :: b' :: before =>
        simp only [List.cons_append, List.cons.injEq] at hs
        obtain ⟨rfl, rfl, rfl⟩ := hs
        rw [backslashesAtEnd_escape] at hbefore
        exact .inr ⟨before, after, rfl, hbefore, hafter⟩
  | single d s hd ih =>
    rw [units_single hd, List.mem_cons, ih]
    constructor
    · rintro (h | ⟨before, after, rfl, hbefore, hafter⟩)
      · cases h
        exact ⟨[], s, rfl, rfl, hd⟩
      · have hne : d ≠ '\\' := fun h => by simpa using hd h
        exact ⟨d :: before, after, rfl, by rw [backslashesAtEnd_cons_of_ne hne, hbefore], hafter⟩
    · rintro ⟨before, after, hs, hbefore, hafter⟩
      match before with
      | [] =>
        obtain ⟨rfl, rfl⟩ := List.cons_eq_cons.mp hs
        exact .inl rfl
      | b :: before =>
        obtain ⟨rfl, rfl⟩ := List.cons_eq_cons.mp hs
        have hne : d ≠ '\\' := fun h => by simpa using hd h
        rw [backslashesAtEnd_cons_of_ne hne] at hbefore
        exact .inr ⟨before, after, rfl, hbefore, hafter⟩

/-- A backslash is left without a character if the text ends with an odd number of them. -/
theorem single_backslash_mem_units_iff {s : List Char} :
    .single '\\' ∈ units s ↔ backslashesAtEnd s % 2 = 1 := by
  rw [single_mem_units_iff]
  constructor
  · rintro ⟨before, after, rfl, hbefore, hafter⟩
    rw [hafter rfl, backslashesAtEnd_concat_backslash]
    omega
  · intro h
    induction s using List.reverseRecOn with
    | nil => cases h
    | append_singleton s c =>
      obtain rfl : c = '\\' := by
        by_contra hc
        rw [backslashesAtEnd_concat_of_ne hc] at h
        cases h
      rw [backslashesAtEnd_concat_backslash] at h
      exact ⟨s, [], rfl, by omega, fun _ => rfl⟩

/-! ## Errors -/

def tokenLetters : List Char :=
  ['d', 'j', 'm', 'n', 'Y', 'y', 'H', 'G', 'h', 'g', 'i', 's', 'A', 'a', 'D', 'l', 'M', 'F', 'U',
   'v', 'u', 'O', 'P']

/-- What is wrong with a unit: an escaped character is right, whichever it is. -/
def PatternUnit.error? : PatternUnit → Option PatternError
  | escaped _ => none
  | single c =>
    if c = '\\' then some .danglingEscape
    else if c.isAlpha ∧ c ∉ tokenLetters then some (.unsupportedToken c) else none

theorem Token.isSome_ofLetter?_iff {c : Char} :
    (ofLetter? c).isSome = true ↔ c ∈ tokenLetters := by
  constructor
  · intro h
    unfold ofLetter? at h
    split at h <;> first | decide | cases h
  · intro h
    have hall : ∀ c ∈ tokenLetters, (ofLetter? c).isSome = true := by
      simp [tokenLetters, ofLetter?]
    exact hall c h

theorem map_eq_error_iff {ε α β : Type} {x : Except ε α} {f : α → β} {e : ε} :
    x.map f = .error e ↔ x = .error e := by
  cases x with
  | error e' => simp [Except.map]
  | ok a => simp [Except.map]

/-- The error of a pattern is that of the leftmost unit that has one. -/
theorem compilePieces_eq_error_iff {s : List Char} {e : PatternError} :
    compilePieces s = .error e ↔ (units s).findSome? PatternUnit.error? = some e := by
  induction s using units_cases with
  | nil => simp [compilePieces, units]
  | escaped c s ih =>
    rw [compilePieces, map_eq_error_iff, ih, units, List.findSome?_cons]
    rfl
  | single c s hc ih =>
    rw [units_single hc, List.findSome?_cons]
    by_cases hb : c = '\\'
    · obtain rfl := hc hb
      subst hb
      simp [compilePieces, PatternUnit.error?, eq_comm]
    · cases ht : Token.ofLetter? c with
      | some t =>
        have hmem : c ∈ tokenLetters := Token.isSome_ofLetter?_iff.mp (by simp [ht])
        rw [compilePieces_token ht, map_eq_error_iff, ih]
        simp [PatternUnit.error?, hb, hmem]
      | none =>
        have hmem : c ∉ tokenLetters := fun h => by
          simpa [ht] using Token.isSome_ofLetter?_iff.mpr h
        cases ha : c.isAlpha with
        | false =>
          rw [compilePieces_plain ha hb, map_eq_error_iff, ih]
          simp [PatternUnit.error?, hb, ha]
        | true =>
          have herror : compilePieces (c :: s) = .error (.unsupportedToken c) := by
            cases s <;> simp [compilePieces, hb, ht, ha]
          simp [herror, PatternUnit.error?, hb, ha, hmem, eq_comm]

theorem compile_eq_error_iff {pattern : String} {e : PatternError} :
    compile pattern = .error e ↔
      (units pattern.toList).findSome? PatternUnit.error? = some e := by
  rw [compile, map_eq_error_iff, compilePieces_eq_error_iff]

theorem exists_compile_eq_ok_iff {pattern : String} :
    (∃ p, compile pattern = .ok p) ↔ ∀ u ∈ units pattern.toList, u.error? = none := by
  rw [← List.findSome?_eq_none_iff, Option.eq_none_iff_forall_ne_some]
  simp only [ne_eq, ← compile_eq_error_iff]
  cases compile pattern <;> simp

/-- Units without errors: no single backslash, and every single letter is that of a token. -/
theorem forall_error?_eq_none_iff {s : List Char} :
    (∀ u ∈ units s, u.error? = none) ↔
      (∀ c, .single c ∈ units s → c.isAlpha = true → c ∈ tokenLetters) ∧
        .single '\\' ∉ units s := by
  constructor
  · intro h
    have hsingle := fun c hc => h (.single c) hc
    refine ⟨fun c hc ha => ?_, fun hb => by simpa [PatternUnit.error?] using hsingle '\\' hb⟩
    by_contra hmem
    by_cases hb : c = '\\'
    · simpa [PatternUnit.error?, hb] using hsingle c hc
    · simpa [PatternUnit.error?, hb, ha, hmem] using hsingle c hc
  · rintro ⟨hletters, hbackslash⟩ u hu
    cases u with
    | escaped c => rfl
    | single c =>
      have hb : c ≠ '\\' := by
        rintro rfl
        exact hbackslash hu
      simpa [PatternUnit.error?, hb] using hletters c hu

/-- A pattern that cannot be read passes empty and absent values only. -/
theorem accepts_dateFormat_iff_of_error {pattern : String} {e : PatternError}
    (h : compile pattern = .error e) {value : Option String} :
    Validator.dateFormat.accepts value (some pattern) = true ↔ value = none ∨ value = some "" := by
  cases value with
  | none => simp [Validator.dateFormat]
  | some v =>
    by_cases hv : v = ""
    · simp [Validator.dateFormat, Option.filter, hv]
    · simp [Validator.dateFormat, Option.filter, hv, h]

/-- A pattern can be read if and only if all its single ASCII letters are those of tokens and it
does not end in a backslash that escapes nothing; otherwise the error is that of the first unit
with one. With a pattern that cannot be read, a value passes if and only if it is empty or
absent. -/
theorem compile_outcome (pattern : String) :
    (units pattern.toList).flatMap PatternUnit.spelling = pattern.toList ∧
      ((∃ p, compile pattern = .ok p) ↔
        (∀ before c after, pattern.toList = before ++ c :: after →
          backslashesAtEnd before % 2 = 0 → c.isAlpha = true → c ∈ tokenLetters) ∧
        backslashesAtEnd pattern.toList % 2 = 0) ∧
      (∀ e, compile pattern = .error e ↔
        (units pattern.toList).findSome? PatternUnit.error? = some e) ∧
      ∀ e, compile pattern = .error e → ∀ value,
        Validator.dateFormat.accepts value (some pattern) = true ↔
          value = none ∨ value = some "" := by
  refine ⟨flatMap_spelling_units _, ?_, fun e => compile_eq_error_iff,
    fun e h value => accepts_dateFormat_iff_of_error h⟩
  rw [exists_compile_eq_ok_iff, forall_error?_eq_none_iff, single_backslash_mem_units_iff,
    Nat.mod_two_not_eq_one]
  refine and_congr_left fun _ => ⟨fun h before c after hs heven ha => ?_, fun h c hc ha => ?_⟩
  · have hsingle : c = '\\' → after = [] := by
      rintro rfl
      cases ha
    exact h c (single_mem_units_iff.mpr ⟨before, after, hs, heven, hsingle⟩) ha
  · obtain ⟨before, after, hs, heven, -⟩ := single_mem_units_iff.mp hc
    exact h before c after hs heven ha

/-- The second backslash is escaped, so that the letter behind it is not, and comes before the
backslash that escapes nothing. -/
theorem compile_outcome_escaped_backslash :
    compile "d\\\\Q\\" = .error (.unsupportedToken 'Q') ∧ ∀ value,
      Validator.dateFormat.accepts value (some "d\\\\Q\\") = true ↔
        value = none ∨ value = some "" := by
  obtain ⟨-, -, herror, hvalue⟩ := compile_outcome "d\\\\Q\\"
  have hpattern : compile "d\\\\Q\\" = .error (.unsupportedToken 'Q') :=
    (herror _).mpr (by decide)
  exact ⟨hpattern, hvalue _ hpattern⟩

end FormCheck.DatePattern
