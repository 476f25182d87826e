import FormCheck.Proofs.DatePattern.Slices
import Mathlib.Data.List.DropRight

/-!
# The shape of a pattern and its reader cut a value alike

A value that has the shape of a pattern falls into slices. If the reader takes it as well, its
slices have no foreign digits, because a literal accounts for every foreign digit that is read. And
where no digit can follow a number of varying width, the reader takes slice by slice.

## Main definitions

* `Separated`: the patterns in which no digit can follow a number of varying width.
* `Piece.Gives`: what a slice says lies below a reading.

## Main results

* `forall₂_isSlice_of_matches`: the slices of a value that is read have ASCII digits only.
* `Reading.ofPieces_flatten_le_iff`: reading a sliced value merges what the slices say.
-/

namespace FormCheck.DatePattern

open Text

/-! ## Slices without foreign digits -/

theorem Piece.isForeignDigit_le_of_matches {p : Piece} {u : List Char}
    (h : Regex.Matches p.shape u) :
    (if p.isForeignDigit then 1 else 0) ≤ foreignDigits u := by
  cases p with
  | token t => simp [isForeignDigit]
  | literal c =>
    obtain rfl := Regex.matches_exactly_iff.mp h
    rw [foreignDigits, List.countP_singleton]
    exact Nat.le_refl _

theorem countP_isForeignDigit_le {ps : List Piece} {us : List (List Char)}
    (h : List.Forall₂ (fun p u => Regex.Matches p.shape u) ps us) :
    ps.countP Piece.isForeignDigit ≤ foreignDigits us.flatten := by
  induction h with
  | nil => simp
  | @cons p u ps us hp _ ih =>
    have := Piece.isForeignDigit_le_of_matches hp
    rw [List.countP_cons, List.flatten_cons, foreignDigits_append]
    omega

/-- The foreign digits of a value are at least those that the literals stand for. If there are no
more, the slices of tokens have none. -/
theorem forall₂_isSlice_of_matches {ps : List Piece} {us : List (List Char)}
    (h : List.Forall₂ (fun p u => Regex.Matches p.shape u) ps us)
    (hf : foreignDigits us.flatten = ps.countP Piece.isForeignDigit) :
    List.Forall₂ Piece.IsSlice ps us := by
  induction h with
  | nil => exact .nil
  | @cons p u ps us hp hs ih =>
    have hhere := Piece.isForeignDigit_le_of_matches hp
    have hrest := countP_isForeignDigit_le hs
    rw [List.countP_cons, List.flatten_cons, foreignDigits_append] at hf
    refine .cons ?_ (ih (by omega))
    cases p with
    | token t =>
      have hzero : foreignDigits u = 0 := by
        simp only [Piece.isForeignDigit, Bool.false_eq_true, if_false] at hf hhere
        omega
      refine ⟨hp, ?_⟩
      intro c hc
      simpa using List.countP_eq_zero.mp hzero c hc
    | literal c => exact Regex.matches_exactly_iff.mp hp

/-! ## Words and numbers -/

/-- Whether a token takes letters. -/
def Token.isWord : Token → Bool
  | .meridiem | .weekday _ | .monthName _ => true
  | _ => false

section Slice

variable {t : Token} {u : List Char}

theorem Token.IsSlice.of_isWord (h : t.IsSlice u) (hb : t.isBasic = true) (hw : t.isWord = true) :
    u ≠ [] ∧ ∀ c ∈ u, CharClass.asciiLetter.contains c = true := by
  cases t with
  | meridiem =>
    obtain ⟨x, hx, y, hy, rfl⟩ := isSlice_meridiem_iff.mp h
    have hletters : ∀ x ∈ ['a', 'A', 'p', 'P'], ∀ y ∈ ['m', 'M'], ∀ c ∈ [x, y],
        CharClass.asciiLetter.contains c = true := by simp [asciiLetter_contains_iff]
    exact ⟨List.cons_ne_nil _ _, hletters x hx y hy⟩
  | weekday full | monthName full =>
    obtain rfl : full = false := by simpa [isBasic] using hb
    obtain ⟨hlen, hletter⟩ := isSlice_nameShape_iff.mp h
    exact ⟨List.ne_nil_of_length_pos (by omega), hletter⟩
  | _ => cases hw

theorem Token.IsSlice.of_not_isWord (h : t.IsSlice u) (hb : t.isBasic = true)
    (hw : t.isWord = false) : u ≠ [] ∧ ∀ c ∈ u, c.isDigit = true := by
  cases t with
  | day padded | month padded | hour padded | clockHour padded =>
    have hu := isSlice_numberShape_iff.mp h
    exact ⟨hu.ne_nil (by split <;> omega), hu.isDigit⟩
  | minute | second | year =>
    have hu := isSlice_times_digit_iff.mp h
    exact ⟨hu.ne_nil (by omega), hu.isDigit⟩
  | meridiem | weekday | monthName => cases hw
  | _ => cases hb

theorem isBlank_of_asciiLetter {c : Char} (h : CharClass.asciiLetter.contains c = true) :
    isBlank c = false := by
  by_contra hb
  obtain ⟨i, hi, hi₁, hi₂⟩ := inIntervals_iff.mp (Bool.of_not_eq_false hb)
  have hrange : ∀ i ∈ blankIntervals, i.2 < 65 ∨ 122 < i.1 := by decide
  have := hrange i hi
  have := asciiLetter_contains_iff.mp h
  omega

theorem not_isDigit_of_asciiLetter {c : Char} (h : CharClass.asciiLetter.contains c = true) :
    c.isDigit = false := by
  by_contra hd
  have := isDigit_iff.mp (Bool.of_not_eq_false hd)
  have := asciiLetter_contains_iff.mp h
  omega

/-- A slice of a basic token starts with a character that is no blank. -/
theorem Token.IsSlice.exists_cons (h : t.IsSlice u) (hb : t.isBasic = true) :
    ∃ c v, u = c :: v ∧ isBlank c = false := by
  cases hw : t.isWord with
  | true =>
    obtain ⟨hne, hletter⟩ := h.of_isWord hb hw
    obtain ⟨c, v, rfl⟩ := List.exists_cons_of_ne_nil hne
    exact ⟨c, v, rfl, isBlank_of_asciiLetter (hletter c List.mem_cons_self)⟩
  | false =>
    obtain ⟨hne, hdigit⟩ := h.of_not_isWord hb hw
    obtain ⟨c, v, rfl⟩ := List.exists_cons_of_ne_nil hne
    exact ⟨c, v, rfl, isBlank_of_isDigit (hdigit c List.mem_cons_self)⟩

end Slice

/-! ## Separated patterns -/

/-- Whether a piece is a literal other than an ASCII digit, or stands for letters. -/
def Piece.mayFollowNumber : Piece → Bool
  | token t => t.isWord
  | literal c => !c.isDigit

/-- Whether a piece takes a number of one or two digits. -/
def Piece.isUnpadded : Piece → Bool
  | token t => t.isUnpadded
  | literal _ => false

/-- Whether a number of one or two digits is last or followed by what is no ASCII digit. -/
def Separated (ps : List Piece) : Prop :=
  ps.IsChain fun p q => p.isUnpadded = true → q.mayFollowNumber = true

instance (ps : List Piece) : Decidable (Separated ps) :=
  inferInstanceAs (Decidable (ps.IsChain _))

/-- Whether all tokens are basic. -/
def Basic (ps : List Piece) : Prop := ∀ t, Piece.token t ∈ ps → t.isBasic = true

theorem Basic.of_cons {p : Piece} {ps : List Piece} (h : Basic (p :: ps)) : Basic ps :=
  fun t ht => h t (List.mem_cons_of_mem p ht)

section Sliced

variable {p : Piece} {u : List Char} {ps : List Piece} {us : List (List Char)}

theorem Piece.IsSlice.endsNumber (h : p.IsSlice u) (hb : ∀ t, p = token t → t.isBasic = true)
    (hp : p.mayFollowNumber = true) (rest : List Char) : EndsNumber (u ++ rest) := by
  cases p with
  | literal c =>
    obtain rfl : u = [c] := h
    rintro _ ⟨⟩
    simpa [mayFollowNumber] using hp
  | token t =>
    obtain ⟨hne, hletter⟩ := Token.IsSlice.of_isWord h (hb t rfl) hp
    obtain ⟨c, v, rfl⟩ := List.exists_cons_of_ne_nil hne
    rintro _ ⟨⟩
    exact not_isDigit_of_asciiLetter (hletter c List.mem_cons_self)

/-- What follows a number of one or two digits in a separated pattern ends it. -/
theorem Separated.endsNumber (hs : Separated (p :: ps)) (hb : Basic ps)
    (h : List.Forall₂ Piece.IsSlice ps us) (hp : p.isUnpadded = true) :
    EndsNumber us.flatten := by
  cases h with
  | nil => exact endsNumber_nil
  | @cons q v qs vs hq _ =>
    have hfollow := (List.isChain_cons_cons.mp hs).1 hp
    exact hq.endsNumber (fun t ht => hb t (ht ▸ List.mem_cons_self)) hfollow vs.flatten

/-! ## Reading slice by slice -/

/-- Whether a text may be what a token stands for, because it does not start with a blank, or is
what a literal stands for. -/
def Piece.Solid : Piece → List Char → Prop
  | token _, u => ∃ c v, u = c :: v ∧ isBlank c = false
  | literal c, u => u = [c]

theorem forall₂_solid (hb : Basic ps) (h : List.Forall₂ Piece.IsSlice ps us) :
    List.Forall₂ Piece.Solid ps us := by
  induction h with
  | nil => exact .nil
  | @cons p u ps us hp _ ih =>
    refine .cons ?_ (ih hb.of_cons)
    cases p with
    | token t => exact Token.IsSlice.exists_cons hp (hb t List.mem_cons_self)
    | literal c => exact hp

/-- Blanks before a value do not matter: no token starts with one, and a literal blank takes any
number of them. -/
theorem Reading.ofPieces_dropBlank (h : List.Forall₂ Piece.Solid ps us) (r : Reading) :
    ofPieces ps r (dropBlank us.flatten) = ofPieces ps r us.flatten := by
  cases h with
  | nil => rfl
  | @cons p u ps us hp _ =>
    cases p with
    | token t =>
      obtain ⟨c, v, rfl, hc⟩ := hp
      rw [List.flatten_cons, List.cons_append, dropBlank_cons_of_not_blank hc]
    | literal c =>
      obtain rfl : u = [c] := hp
      cases hc : isBlank c with
      | true =>
        have hidem : ∀ s, dropBlank (dropBlank s) = dropBlank s := fun s =>
          List.dropWhile_idempotent isBlank s
        simp [ofPieces, Piece.read, hc, hidem]
      | false => rw [List.flatten_cons, List.singleton_append, dropBlank_cons_of_not_blank hc]

/-- A literal that reads its slice leaves the rest, up to blanks. -/
theorem Reading.ofPieces_literal_cons (h : List.Forall₂ Piece.Solid ps us) (c : Char)
    (r : Reading) : ofPieces (.literal c :: ps) r (c :: us.flatten) = ofPieces ps r us.flatten := by
  cases hc : isBlank c with
  | true =>
    simp [ofPieces, Piece.read, hc, dropBlank_cons_of_blank hc, ofPieces_dropBlank h]
  | false => simp [ofPieces, Piece.read, hc]

/-- A token takes its slice, and the other pieces read on from the merge. -/
theorem Reading.ofPieces_token_cons {t : Token} {part : Option Reading}
    (htake : t.take (u ++ us.flatten) = part.map (·, us.flatten)) (r : Reading) :
    ofPieces (.token t :: ps) r (u :: us).flatten =
      part.bind fun p => (r.merge p).bind fun q => ofPieces ps q us.flatten := by
  rw [List.flatten_cons, ofPieces, Piece.read, t.read_eq_merge, htake]
  simp only [Option.bind_map, Option.bind_assoc, Function.comp_def, Option.bind_eq_bind]

/-- Whether what a slice says lies below a reading. -/
def Piece.Gives (z : Reading) : Piece → List Char → Prop
  | token t, u => ∃ p, t.part? u = some p ∧ p ≤ z
  | literal _, _ => True

/-- A sliced value is read if and only if there is a reading above all that its slices say, and
then the result is the least such reading. -/
theorem Reading.ofPieces_flatten_le_iff (hb : Basic ps) (hs : Separated ps)
    (h : List.Forall₂ Piece.IsSlice ps us) {r z : Reading} :
    (∃ q, ofPieces ps r us.flatten = some q ∧ q ≤ z) ↔
      r ≤ z ∧ List.Forall₂ (Piece.Gives z) ps us := by
  induction h generalizing r with
  | nil => simp [ofPieces]
  | @cons p u ps us hp hrest ih =>
    have ih := @ih hb.of_cons hs.of_cons
    rw [List.forall₂_cons]
    cases p with
    | literal c =>
      obtain rfl : u = [c] := hp
      rw [List.flatten_cons, List.singleton_append,
        ofPieces_literal_cons (forall₂_solid hb.of_cons hrest), ih]
      simp [Piece.Gives]
    | token t =>
      have hends : t.isUnpadded = true → EndsNumber us.flatten := hs.endsNumber hb.of_cons hrest
      have htake := Token.take_append (hb t List.mem_cons_self) hp hends
      rw [ofPieces_token_cons htake]
      constructor
      · rintro ⟨q, hq, hqz⟩
        obtain ⟨p, hp, hq⟩ := Option.bind_eq_some_iff.mp hq
        obtain ⟨r', hr', hq⟩ := Option.bind_eq_some_iff.mp hq
        obtain ⟨hle, hgives⟩ := ih.mp ⟨q, hq, hqz⟩
        obtain ⟨hr, hpz⟩ := (merge_le_iff hr').mp hle
        exact ⟨hr, ⟨p, hp, hpz⟩, hgives⟩
      · rintro ⟨hr, ⟨p, hp, hpz⟩, hgives⟩
        obtain ⟨r', hr'⟩ := exists_merge hr hpz
        obtain ⟨q, hq, hqz⟩ := ih.mpr ⟨(merge_le_iff hr').mpr ⟨hr, hpz⟩, hgives⟩
        exact ⟨q, by simp [hp, hr', hq], hqz⟩

end Sliced

end FormCheck.DatePattern
