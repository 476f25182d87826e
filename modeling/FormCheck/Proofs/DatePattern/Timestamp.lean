import FormCheck.Proofs.DatePattern.Acceptance

/-!
# Timestamps

The shape of a timestamp has room for a minus sign and for the digits of any script, while the
reader takes neither. What both accept is a number in ASCII digits, as far as it has 63 bits:
timestamps before 1970 are refused, although they have the shape.

## Main definitions

* `WritesInteger`: the texts of an integer.
* `IsTimestamp`: the integers of 64 bits.

## Main results

* `takeNumber_eq_some_nil_iff`: which numbers are taken to their end.
* `compile_accepts_timestamp_iff`: a timestamp is accepted if it is written without a minus sign.
* `timestamp_before_1970_not_accepted`: a timestamp that has the shape and is not accepted.
-/

namespace FormCheck.DatePattern

open Text

/-- Whether a text consists of ASCII digits, with a minus sign in front or without, that write the
integer `n`. -/
inductive WritesInteger : Int → List Char → Prop where
  | plain {ds : List Char} (hne : ds ≠ []) (hd : ∀ c ∈ ds, c.isDigit = true) :
      WritesInteger (ofDigits ds) ds
  | negative {ds : List Char} (hne : ds ≠ []) (hd : ∀ c ∈ ds, c.isDigit = true) :
      WritesInteger (-ofDigits ds) ('-' :: ds)

/-- Whether an integer has 64 bits, one of them for the sign. -/
def IsTimestamp (n : Int) : Prop := -9223372036854775808 ≤ n ∧ n ≤ 9223372036854775807

instance (n : Int) : Decidable (IsTimestamp n) :=
  inferInstanceAs (Decidable (-9223372036854775808 ≤ n ∧ n ≤ 9223372036854775807))

theorem isTimestamp_natCast_iff {n : Nat} : IsTimestamp n ↔ n ≤ maxNumber := by
  rw [IsTimestamp, maxNumber]
  omega

/-- A text is taken as a number to its end if it consists of digits and is not too large. -/
theorem takeNumber_eq_some_nil_iff {width n : Nat} {s : List Char} (hwidth : s.length ≤ width) :
    takeNumber width s = some (n, []) ↔
      s ≠ [] ∧ (∀ c ∈ s, c.isDigit = true) ∧ ofDigits s ≤ maxNumber ∧ n = ofDigits s := by
  have hrest : s.drop (s.takeWhile Char.isDigit).length = s.dropWhile Char.isDigit := by
    have hleft := @List.drop_left _ (s.takeWhile Char.isDigit) (s.dropWhile Char.isDigit)
    rwa [List.takeWhile_append_dropWhile] at hleft
  simp only [takeNumber, List.take_of_length_le hwidth, hrest, Option.ite_none_left_eq_some,
    Option.some.injEq, Prod.mk.injEq, List.dropWhile_eq_nil_iff]
  constructor
  · rintro ⟨hnumber, rfl, hd⟩
    have hall : s.takeWhile Char.isDigit = s := List.takeWhile_eq_self_iff.mpr hd
    rw [hall] at hnumber ⊢
    simp only [Bool.or_eq_true, List.isEmpty_iff, decide_eq_true_eq, not_or, not_lt] at hnumber
    exact ⟨hnumber.1, hd, hnumber.2, rfl⟩
  · rintro ⟨hne, hd, hle, rfl⟩
    have hall : s.takeWhile Char.isDigit = s := List.takeWhile_eq_self_iff.mpr hd
    rw [hall]
    exact ⟨by simp [hne, hle], rfl, hd⟩

/-- Timestamps have a sign or none, and digits of any script. -/
theorem matches_timestamp_iff {u : List Char} :
    Regex.Matches Token.timestamp.shape u ↔
      ∃ ds, ds ≠ [] ∧ (∀ c ∈ ds, isDecimalDigit c = true) ∧ (u = ds ∨ u = '-' :: ds) := by
  simp only [Token.shape, Token.digit, Regex.matches_seq_iff, Regex.matches_opt_iff,
    Regex.matches_exactly_iff, Regex.matches_plus_char_iff]
  constructor
  · rintro ⟨_, ds, rfl | rfl, ⟨hne, hd⟩, hu⟩
    · exact ⟨ds, hne, hd, .inr hu⟩
    · exact ⟨ds, hne, hd, .inl hu⟩
  · rintro ⟨ds, hne, hd, hu | hu⟩
    · exact ⟨[], ds, .inr rfl, ⟨hne, hd⟩, hu⟩
    · exact ⟨['-'], ds, .inl rfl, ⟨hne, hd⟩, hu⟩

theorem WritesInteger.matches {n : Int} {u : List Char} (h : WritesInteger n u) :
    Regex.Matches Token.timestamp.shape u := by
  rw [matches_timestamp_iff]
  cases h with
  | plain hne hd => exact ⟨_, hne, fun c hc => isDecimalDigit_of_isDigit (hd c hc), .inl rfl⟩
  | negative hne hd => exact ⟨_, hne, fun c hc => isDecimalDigit_of_isDigit (hd c hc), .inr rfl⟩

/-- The shape of a timestamp does not start with a blank. -/
theorem dropBlank_of_matches_timestamp {u : List Char}
    (h : Regex.Matches Token.timestamp.shape u) : dropBlank u = u := by
  obtain ⟨ds, hne, hd, hu⟩ := matches_timestamp_iff.mp h
  obtain ⟨c, ds, rfl⟩ := List.exists_cons_of_ne_nil hne
  rcases hu with rfl | rfl
  · refine dropBlank_cons_of_not_blank (Bool.eq_false_iff.mpr fun hb => ?_)
    have hdigit := hd c List.mem_cons_self
    rw [isDecimalDigit_of_isBlank hb] at hdigit
    cases hdigit
  · exact dropBlank_cons_of_not_blank (by decide)

/-- A timestamp is read if the reader takes it to its end. -/
theorem exists_ofPieces_timestamp_iff {s : List Char} :
    (∃ q, Reading.ofPieces [.token .timestamp] {} s = some q) ↔
      ∃ n, takeNumberIn 0 maxNumber s.length s = some (n, []) := by
  simp only [Reading.ofPieces, Piece.read, Token.read, Option.bind_eq_bind]
  cases takeNumberIn 0 maxNumber s.length s with
  | none => simp only [Option.bind_none, reduceCtorEq, exists_false]
  | some p =>
    obtain ⟨n, rest⟩ := p
    cases rest with
    | nil => exact ⟨fun _ => ⟨n, rfl⟩, fun _ => ⟨_, rfl⟩⟩
    | cons c rest =>
      constructor
      · rintro ⟨q, h⟩
        cases h
      · rintro ⟨n, h⟩
        cases h

/-- The shape and the reader have to agree. -/
theorem accepts_timestamp_iff {value : String} :
    accepts ⟨[.token .timestamp]⟩ value = true ↔
      Regex.Matches Token.timestamp.shape value.toList ∧
        ∃ n, takeNumberIn 0 maxNumber value.toList.length value.toList = some (n, []) := by
  have hshape : shape ⟨[.token .timestamp]⟩ = .seq Token.timestamp.shape .empty := rfl
  have hconsistent : ∀ q, isConsistent ⟨[.token .timestamp]⟩ q = true := fun _ => rfl
  rw [accepts, Bool.and_eq_true, and_comm, Regex.accepts_iff, hshape, Regex.matches_seq_iff,
    Option.any_eq_true, ← exists_ofPieces_timestamp_iff]
  simp [hconsistent, read?, Regex.matches_empty_iff]

theorem accepts_shape_timestamp {value : String} {n : Int} (h : WritesInteger n value.toList) :
    (shape ⟨[.token .timestamp]⟩).accepts value.toList = true := by
  rw [Regex.accepts_iff, shape, Regex.matches_chain_iff]
  exact ⟨[value.toList], .cons h.matches .nil, by simp⟩

/-- What is accepted are the integers of 64 bits in ASCII digits without a minus sign. -/
theorem accepts_timestamp_iff_writesInteger {value : String} :
    accepts ⟨[.token .timestamp]⟩ value = true ↔
      ∃ n, WritesInteger n value.toList ∧ IsTimestamp n ∧ value.toList.head? ≠ some '-' := by
  rw [accepts_timestamp_iff]
  constructor
  · rintro ⟨hshape, n, hread⟩
    rw [takeNumberIn, dropBlank_of_matches_timestamp hshape] at hread
    obtain ⟨⟨n, rest⟩, hn, hread⟩ := Option.bind_eq_some_iff.mp hread
    rw [Option.ite_none_right_eq_some] at hread
    cases hread.2
    obtain ⟨hne, hd, hle, rfl⟩ := (takeNumber_eq_some_nil_iff (Nat.le_refl _)).mp hn
    refine ⟨_, .plain hne hd, isTimestamp_natCast_iff.mpr hle, fun hsign => ?_⟩
    obtain ⟨ds, hds⟩ := List.head?_eq_some_iff.mp hsign
    have hminus := hd '-' (by simp [hds])
    cases hminus
  · rintro ⟨n, hwrites, hrange, hsign⟩
    refine ⟨hwrites.matches, ?_⟩
    rw [takeNumberIn, dropBlank_of_matches_timestamp hwrites.matches]
    generalize value.toList = s at hwrites hsign ⊢
    cases hwrites with
    | negative => exact absurd rfl hsign
    | plain hne hd =>
      have hle : ofDigits s ≤ maxNumber := isTimestamp_natCast_iff.mp hrange
      have htake := (takeNumber_eq_some_nil_iff (Nat.le_refl _)).mpr ⟨hne, hd, hle, rfl⟩
      exact ⟨ofDigits s, by simp [htake, hle]⟩

/-- The pattern that is a timestamp accepts the integers of 64 bits that are written without a minus
sign. So it accepts just the texts of timestamps but for those with a minus sign, although its shape
describes these as well. -/
theorem compile_accepts_timestamp_iff (value : String) :
    ∃ p, compile "U" = .ok p ∧
      (p.accepts value = true ↔
        ∃ n, WritesInteger n value.toList ∧ IsTimestamp n ∧ value.toList.head? ≠ some '-') ∧
      ((p.accepts value = true ↔ ∃ n, WritesInteger n value.toList ∧ IsTimestamp n) ↔
        ¬∃ n, WritesInteger n value.toList ∧ IsTimestamp n ∧ value.toList.head? = some '-') ∧
      ∀ n, WritesInteger n value.toList → p.shape.accepts value.toList = true := by
  refine ⟨⟨[.token .timestamp]⟩, rfl, accepts_timestamp_iff_writesInteger, ?_,
    fun n => accepts_shape_timestamp⟩
  rw [accepts_timestamp_iff_writesInteger]
  by_cases hsign : value.toList.head? = some '-'
  · simp [hsign]
  · simp [hsign]

/-- The last second before 1970 has the shape of a timestamp. -/
theorem timestamp_before_1970_not_accepted :
    ∃ p, compile "U" = .ok p ∧ WritesInteger (-1) "-1".toList ∧ IsTimestamp (-1) ∧
      p.shape.accepts "-1".toList = true ∧ p.accepts "-1" = false := by
  have hdigits : ∀ c ∈ ['1'], c.isDigit = true := List.forall_mem_singleton.mpr rfl
  exact ⟨_, rfl, .negative (List.cons_ne_nil _ _) hdigits, by decide, by decide, by decide⟩

end FormCheck.DatePattern
