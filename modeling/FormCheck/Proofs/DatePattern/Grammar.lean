import FormCheck.DatePattern.Pattern

/-!
# The grammar of date patterns

## Main definitions

* `DatePattern.Token.letters`: the letters of a token.
* `DatePattern.Written`: the texts that spell a sequence of pieces.

## Main results

* `DatePattern.compilePieces_eq_ok_iff`: reading a pattern yields the pieces that it spells.
-/

namespace FormCheck.DatePattern

/-! ## Letters -/

/-- The letter of a token, in the upper case for the meridiem. -/
def Token.spelling : Token → Char
  | day true => 'd'
  | day false => 'j'
  | month true => 'm'
  | month false => 'n'
  | year => 'Y'
  | yearOfCentury => 'y'
  | hour true => 'H'
  | hour false => 'G'
  | clockHour true => 'h'
  | clockHour false => 'g'
  | minute => 'i'
  | second => 's'
  | meridiem => 'A'
  | weekday false => 'D'
  | weekday true => 'l'
  | monthName false => 'M'
  | monthName true => 'F'
  | timestamp => 'U'
  | milliseconds => 'v'
  | microseconds => 'u'
  | offset false => 'O'
  | offset true => 'P'

/-- The letters of a token: the meridiem may be written in either case. -/
def Token.letters (t : Token) : List Char := if t = meridiem then ['A', 'a'] else [t.spelling]

theorem Token.ofLetter?_spelling (t : Token) : ofLetter? t.spelling = some t := by
  cases t with
  | day padded => cases padded <;> rfl
  | month padded => cases padded <;> rfl
  | hour padded => cases padded <;> rfl
  | clockHour padded => cases padded <;> rfl
  | weekday full => cases full <;> rfl
  | monthName full => cases full <;> rfl
  | offset colon => cases colon <;> rfl
  | _ => rfl

theorem Token.ofLetter?_eq_some_iff {c : Char} {t : Token} :
    ofLetter? c = some t ↔ c ∈ t.letters := by
  constructor
  · intro h
    unfold ofLetter? at h
    split at h <;> cases h <;> decide
  · intro h
    unfold letters at h
    split at h
    · next ht =>
      subst ht
      rcases List.mem_cons.mp h with rfl | h
      · rfl
      · obtain rfl := List.mem_singleton.mp h
        rfl
    · obtain rfl := List.mem_singleton.mp h
      exact t.ofLetter?_spelling

/-! ## Texts that spell pieces -/

/-- A letter of a token stands for it, a character that is no ASCII letter and no backslash stands
for itself, and so does any character behind a backslash. -/
inductive Written : List Char → List Piece → Prop where
  | nil : Written [] []
  | token {c t s ps} (ht : c ∈ t.letters) (h : Written s ps) :
      Written (c :: s) (.token t :: ps)
  | plain {c s ps} (hc : c.isAlpha = false) (hb : c ≠ '\\') (h : Written s ps) :
      Written (c :: s) (.literal c :: ps)
  | escaped {c s ps} (h : Written s ps) : Written ('\\' :: c :: s) (.literal c :: ps)

theorem Token.isAlpha_of_ofLetter? {c : Char} {t : Token} (h : Token.ofLetter? c = some t) :
    c.isAlpha = true := by
  unfold Token.ofLetter? at h
  split at h <;> first | rfl | cases h

theorem compilePieces_token {c : Char} {t : Token} (h : Token.ofLetter? c = some t)
    (s : List Char) : compilePieces (c :: s) = (compilePieces s).map (.token t :: ·) := by
  have hc : c ≠ '\\' := by
    rintro rfl
    cases h
  cases s <;> simp [compilePieces, hc, h]

theorem compilePieces_plain {c : Char} (hc : c.isAlpha = false) (hb : c ≠ '\\')
    (s : List Char) : compilePieces (c :: s) = (compilePieces s).map (.literal c :: ·) := by
  have ht : Token.ofLetter? c = none := by
    cases ht : Token.ofLetter? c with
    | none => rfl
    | some t => simp [Token.isAlpha_of_ofLetter? ht] at hc
  cases s <;> simp [compilePieces, hb, ht, hc]

theorem compilePieces_of_written {s : List Char} {ps : List Piece} (h : Written s ps) :
    compilePieces s = .ok ps := by
  induction h with
  | nil => rfl
  | token ht _ ih =>
    rw [compilePieces_token (Token.ofLetter?_eq_some_iff.mpr ht), ih]
    rfl
  | plain hc hb _ ih =>
    rw [compilePieces_plain hc hb, ih]
    rfl
  | escaped _ ih =>
    rw [compilePieces, ih]
    rfl

theorem exists_of_map_eq_ok {ε α β : Type} {x : Except ε α} {f : α → β} {b : β}
    (h : x.map f = .ok b) : ∃ a, x = .ok a ∧ b = f a := by
  cases x with
  | error e => cases h
  | ok a => exact ⟨a, rfl, by cases h; rfl⟩

theorem written_of_compilePieces {s : List Char} {ps : List Piece}
    (h : compilePieces s = .ok ps) : Written s ps := by
  fun_induction compilePieces s generalizing ps with
  | case1 =>
    cases h
    exact .nil
  | case2 => cases h
  | case3 c rest ih =>
    obtain ⟨qs, hq, rfl⟩ := exists_of_map_eq_ok h
    exact .escaped (ih hq)
  | case4 c rest _ _ t ht ih =>
    obtain ⟨qs, hq, rfl⟩ := exists_of_map_eq_ok h
    exact .token (Token.ofLetter?_eq_some_iff.mp ht) (ih hq)
  | case5 => cases h
  | case6 c rest hend hesc ht hc ih =>
    obtain ⟨qs, hq, rfl⟩ := exists_of_map_eq_ok h
    have hb : c ≠ '\\' := by
      rintro rfl
      cases rest with
      | nil => exact hend rfl rfl
      | cons d rest => exact hesc d rest rfl rfl
    exact .plain (by simpa using hc) hb (ih hq)

theorem compilePieces_eq_ok_iff {s : List Char} {ps : List Piece} :
    compilePieces s = .ok ps ↔ Written s ps :=
  ⟨written_of_compilePieces, compilePieces_of_written⟩

theorem compile_of_written {pattern : String} {ps : List Piece} (h : Written pattern.toList ps) :
    compile pattern = .ok ⟨ps⟩ := by
  rw [compile, compilePieces_of_written h]
  rfl

end FormCheck.DatePattern
