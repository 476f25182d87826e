import FormCheck.DatePattern.Acceptance
import FormCheck.Proofs.DatePattern.Grammar

/-!
# Equal date patterns

Patterns are compared by their two notations. Neither of these determines a pattern alone: the
conversions do not tell padded numbers from plain ones, and the shapes do not tell a day from a
month. Read side by side from the left they determine one piece after the other, so that equal
patterns have the same pieces, and with them everything that depends on the pieces.

## Main definitions

* `Piece.ofNotations?`: the piece with which two notations begin.
* `Symbol`, `symbols`: a pattern as it is written, up to escapes and the case of the meridiem.

## Main results

* `eq_of_notations_eq`: the two notations together determine the pieces.
* `beq_iff_pieces_eq`: equality compares the pieces.
* `symbols_eq_map_of_written`: the pieces are the symbols that are written.
-/

namespace FormCheck.DatePattern

/-! ## The pieces behind two notations -/

namespace Piece

/-- Whether a shape of digits asks for two of them, and not for one or two. -/
def asksForTwo : List Char → Bool
  | '\\' :: 'd' :: '{' :: '2' :: _ => true
  | _ => false

/-- The piece with which a text of conversions and a text of shapes begin. The second is looked at
only where the conversion leaves open whether a number is padded. -/
def ofNotations? (conversions shapes : List Char) : Option Piece :=
  match conversions with
  | '%' :: 'd' :: _ => some (.token (.day (asksForTwo shapes)))
  | '%' :: 'm' :: _ => some (.token (.month (asksForTwo shapes)))
  | '%' :: 'Y' :: _ => some (.token .year)
  | '%' :: 'y' :: _ => some (.token .yearOfCentury)
  | '%' :: 'H' :: _ => some (.token (.hour (asksForTwo shapes)))
  | '%' :: 'I' :: _ => some (.token (.clockHour (asksForTwo shapes)))
  | '%' :: 'M' :: _ => some (.token .minute)
  | '%' :: 'S' :: _ => some (.token .second)
  | '%' :: 'p' :: _ => some (.token .meridiem)
  | '%' :: 'a' :: _ => some (.token (.weekday false))
  | '%' :: 'A' :: _ => some (.token (.weekday true))
  | '%' :: 'b' :: _ => some (.token (.monthName false))
  | '%' :: 'B' :: _ => some (.token (.monthName true))
  | '%' :: 's' :: _ => some (.token .timestamp)
  | '%' :: '3' :: _ => some (.token .milliseconds)
  | '%' :: '6' :: _ => some (.token .microseconds)
  | '%' :: 'z' :: _ => some (.token (.offset false))
  | '%' :: ':' :: _ => some (.token (.offset true))
  | c :: _ => some (.literal c)
  | [] => none

theorem ofNotations?_token (t : Token) (conversions shapes : List Char) :
    ofNotations? (t.conversion.toList ++ conversions) (t.shapeText.toList ++ shapes) =
      some (.token t) := by
  cases t with
  | day padded => cases padded <;> rfl
  | month padded => cases padded <;> rfl
  | hour padded => cases padded <;> rfl
  | clockHour padded => cases padded <;> rfl
  | weekday full => cases full <;> rfl
  | monthName full => cases full <;> rfl
  | offset colon => cases colon <;> rfl
  | _ => rfl

/-- A literal percent sign is doubled, and no other literal begins a conversion. -/
theorem ofNotations?_literal (c : Char) (conversions shapes : List Char) :
    ofNotations? ((literal c).conversion.toList ++ conversions) shapes = some (.literal c) := by
  by_cases hc : c = '%'
  · subst hc
    rfl
  · have hconversion : (literal c).conversion.toList = [c] := by simp [conversion, hc]
    rw [hconversion]
    simp [ofNotations?, hc]

theorem ofNotations?_append (p : Piece) (conversions shapes : List Char) :
    ofNotations? (p.conversion.toList ++ conversions) (p.shapeText.toList ++ shapes) = some p := by
  cases p with
  | token t => exact ofNotations?_token t conversions shapes
  | literal c => exact ofNotations?_literal c conversions _

end Piece

def conversions (ps : List Piece) : List Char := ps.flatMap fun p => p.conversion.toList

def shapes (ps : List Piece) : List Char := ps.flatMap fun p => p.shapeText.toList

theorem ofNotations?_cons (p : Piece) (ps : List Piece) :
    Piece.ofNotations? (conversions (p :: ps)) (shapes (p :: ps)) = some p :=
  p.ofNotations?_append (conversions ps) (shapes ps)

/-- The two notations determine the first piece. It is the same in both lists, and so are the texts
of the pieces behind it. -/
theorem eq_of_notations_eq {ps qs : List Piece} (hc : conversions ps = conversions qs)
    (hs : shapes ps = shapes qs) : ps = qs := by
  induction ps generalizing qs with
  | nil =>
    cases qs with
    | nil => rfl
    | cons q qs =>
      have hq := ofNotations?_cons q qs
      rw [← hc, ← hs] at hq
      cases hq
  | cons p ps ih =>
    have hp := ofNotations?_cons p ps
    rw [hc, hs] at hp
    cases qs with
    | nil => cases hp
    | cons q qs =>
      obtain rfl : q = p := by simpa [ofNotations?_cons] using hp
      rw [ih (List.append_cancel_left hc) (List.append_cancel_left hs)]

theorem toList_conversionText (p : DatePattern) :
    p.conversionText.toList = conversions p.pieces := by
  rw [conversionText, String.toList_join, List.flatMap_map, conversions]

theorem toList_shapeText (p : DatePattern) :
    p.shapeText.toList = "\\A".toList ++ (shapes p.pieces ++ "\\z".toList) := by
  rw [shapeText, String.toList_append, String.toList_append, String.toList_join, List.flatMap_map,
    List.append_assoc, shapes]

theorem beq_iff_pieces_eq {p q : DatePattern} : (p == q) = true ↔ p.pieces = q.pieces := by
  have htexts : (p == q) = true ↔
      p.conversionText = q.conversionText ∧ p.shapeText = q.shapeText := by
    change (p.conversionText == q.conversionText && p.shapeText == q.shapeText) = true ↔ _
    rw [Bool.and_eq_true, beq_iff_eq, beq_iff_eq]
  rw [htexts]
  constructor
  · rintro ⟨hc, hs⟩
    have hc := congrArg String.toList hc
    have hs := congrArg String.toList hs
    rw [toList_conversionText, toList_conversionText] at hc
    rw [toList_shapeText, toList_shapeText] at hs
    exact eq_of_notations_eq hc (List.append_cancel_right (List.append_cancel_left hs))
  · intro h
    rw [conversionText, conversionText, shapeText, shapeText, h]
    exact ⟨rfl, rfl⟩

/-! ## Patterns as they are written -/

/-- A letter that is not escaped, or a character that stands for itself, escaped or not. -/
inductive Symbol where
  | letter (c : Char)
  | literal (c : Char)
deriving DecidableEq, Repr

/-- The symbols of a pattern. The two letters of the meridiem count as one. -/
def symbols : List Char → List Symbol
  | [] => []
  | '\\' :: c :: s => .literal c :: symbols s
  | c :: s =>
    (if c.isAlpha then .letter (if c = 'a' then 'A' else c) else .literal c) :: symbols s

def Piece.symbol : Piece → Symbol
  | token t => .letter t.spelling
  | literal c => .literal c

theorem Token.spelling_of_ofLetter? {c : Char} {t : Token} (h : ofLetter? c = some t) :
    t.spelling = if c = 'a' then 'A' else c := by
  unfold ofLetter? at h
  split at h <;> cases h <;> rfl

theorem Piece.symbol_injective : Function.Injective symbol := by
  intro p q h
  cases p with
  | literal c =>
    cases q with
    | literal d => simpa [symbol] using h
    | token u => cases h
  | token t =>
    cases q with
    | literal d => cases h
    | token u =>
      have hspelling : t.spelling = u.spelling := by simpa [symbol] using h
      have ht := t.ofLetter?_spelling
      rw [hspelling, u.ofLetter?_spelling] at ht
      rw [Option.some.inj ht]

theorem symbols_cons {c : Char} (hc : c ≠ '\\') (s : List Char) :
    symbols (c :: s) =
      (if c.isAlpha then .letter (if c = 'a' then 'A' else c) else .literal c) :: symbols s := by
  cases s <;> simp [symbols, hc]

theorem symbols_eq_map_of_written {s : List Char} {ps : List Piece} (h : Written s ps) :
    symbols s = ps.map Piece.symbol := by
  induction h with
  | nil => rfl
  | @token c t s ps hmem _ ih =>
    have ht := Token.ofLetter?_eq_some_iff.mpr hmem
    have halpha := Token.isAlpha_of_ofLetter? ht
    have hc : c ≠ '\\' := by
      rintro rfl
      cases ht
    rw [symbols_cons hc, halpha, if_pos rfl, ih, ← Token.spelling_of_ofLetter? ht]
    rfl
  | plain hc hb _ ih =>
    rw [symbols_cons hb, hc, if_neg Bool.false_ne_true, ih]
    rfl
  | escaped _ ih =>
    rw [symbols, ih]
    rfl

theorem symbols_of_compile {pattern : String} {p : DatePattern} (h : compile pattern = .ok p) :
    symbols pattern.toList = p.pieces.map Piece.symbol := by
  obtain ⟨ps, hps, rfl⟩ := exists_of_map_eq_ok h
  exact symbols_eq_map_of_written (written_of_compilePieces hps)

/-- Patterns that can be read are equal if and only if they are written with the same symbols. Equal
patterns determine a day or a time alike, although that is not compared, and accept the same
values. -/
theorem compile_beq_iff_symbols {a b : String} {p q : DatePattern} (ha : compile a = .ok p)
    (hb : compile b = .ok q) :
    ((p == q) = true ↔ symbols a.toList = symbols b.toList) ∧
      ((p == q) = true → p.hasDate = q.hasDate ∧ p.hasTime = q.hasTime ∧
        ∀ value, p.accepts value = q.accepts value) := by
  rw [beq_iff_pieces_eq]
  constructor
  · rw [symbols_of_compile ha, symbols_of_compile hb]
    exact (List.map_inj_right fun _ _ h => Piece.symbol_injective h).symm
  · intro h
    obtain rfl : p = q := congrArg mk h
    exact ⟨rfl, rfl, fun _ => rfl⟩

/-- Two patterns that differ in an escape and in the case of the meridiem. -/
theorem compile_beq_iff_symbols_meridiem :
    ∃ p q, compile "h:i\\m a" = .ok p ∧ compile "h\\:i\\m A" = .ok q ∧
      ((p == q) = true ↔ symbols "h:i\\m a".toList = symbols "h\\:i\\m A".toList) ∧
      (p == q) = true ∧ p.hasDate = q.hasDate ∧ p.hasTime = q.hasTime ∧
      ∀ value, p.accepts value = q.accepts value := by
  have hp : ∃ p, compile "h:i\\m a" = .ok p ∧ compile "h\\:i\\m A" = .ok p := ⟨_, rfl, rfl⟩
  obtain ⟨p, hp, hq⟩ := hp
  obtain ⟨hiff, hsame⟩ := compile_beq_iff_symbols hp hq
  have heq : (p == p) = true := hiff.mpr (by decide)
  exact ⟨p, p, hp, hq, hiff, heq, hsame heq⟩

end FormCheck.DatePattern
