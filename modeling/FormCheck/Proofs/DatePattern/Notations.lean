import FormCheck.Proofs.DatePattern.Equality
import FormCheck.Proofs.Regex.Language

/-!
# What the two notations say

A pattern is kept as two texts, conversions for the reader and a regular expression for the shape.
Here both texts are read on their own, by the rules of their languages and without the pattern. A
pattern accepts what its conversions can be read along and its regular expression describes.

The notation of regular expressions is given as far as shapes use it: a repetition follows a single
place, and the only group is the one that reads the meridiem in either case.

## Main definitions

* `CharClass.Spells`, `Regex.SpellsPart`, `Regex.Spells`: the notation of regular expressions.
* `Regex.IsNotation`: a text that spells an expression with the same texts.
* `DatePattern.ofConversions?`: the pieces that a text of conversions stands for.

## Main results

* `DatePattern.isNotation_shapes`: the written shape is a notation of the shape.
* `DatePattern.read?_eq_ofConversions?`: the conversions determine what the reader takes.
* `DatePattern.accepts_iff_notations`: the two texts determine what a pattern accepts.
-/

namespace FormCheck

/-! ## The notation of regular expressions -/

/-- The characters that stand for themselves only behind a backslash. -/
def Regex.operators : List Char :=
  ['\\', '.', '+', '*', '?', '(', ')', '|', '[', ']', '{', '}', '^', '$']

/-- The notations of one place. A backslash may also stand before some characters that are no
operators. -/
inductive CharClass.Spells : List Char → CharClass → Prop where
  | decimalDigit : Spells ['\\', 'd'] .decimalDigit
  | asciiLetter : Spells "[A-Za-z]".toList (.within [('A', 'Z'), ('a', 'z')])
  | sign : Spells "[+-]".toList (.oneOf ['+', '-'])
  | plain {c} (hc : c ∉ Regex.operators) : Spells [c] (.oneOf [c])
  | escaped {c} (hc : c ∈ Regex.operators ++ ['#', '&', '-', '~']) : Spells ['\\', c] (.oneOf [c])

namespace Regex

/-- The notations of a place or of a repetition of it, and the group of the meridiem. -/
inductive SpellsPart : List Char → Regex → Prop where
  | once {u k} (hu : CharClass.Spells u k) : SpellsPart u (char k)
  | opt {u k} (hu : CharClass.Spells u k) : SpellsPart (u ++ ['?']) (char k).opt
  | plus {u k} (hu : CharClass.Spells u k) : SpellsPart (u ++ ['+']) (char k).plus
  | times {u k} (n : Nat) (hu : CharClass.Spells u k) :
      SpellsPart (u ++ '{' :: (toString n).toList ++ ['}']) ((char k).times n)
  | between {u k} (m n : Nat) (hu : CharClass.Spells u k) :
      SpellsPart (u ++ '{' :: (toString m).toList ++ ',' :: (toString (m + n)).toList ++ ['}'])
        (seq ((char k).times m) ((char k).upTo n))
  | meridiem : SpellsPart "(?i:am|pm)".toList
      (alt (seq (char (.oneOf ['a', 'A'])) (char (.oneOf ['m', 'M'])))
        (seq (char (.oneOf ['p', 'P'])) (char (.oneOf ['m', 'M']))))

/-- The notations of some parts in a row. -/
inductive Spells : List Char → Regex → Prop where
  | empty : Spells [] empty
  | cons {u v r s} (hu : SpellsPart u r) (hv : Spells v s) : Spells (u ++ v) (seq r s)

/-! ## Expressions with the same texts -/

def SameTexts (r s : Regex) : Prop := ∀ u, Matches r u ↔ Matches s u

section SameTexts

variable {r r' s s' t : Regex}

theorem SameTexts.refl (r : Regex) : SameTexts r r := fun _ => Iff.rfl

theorem SameTexts.symm (h : SameTexts r s) : SameTexts s r := fun u => (h u).symm

theorem SameTexts.trans (h : SameTexts r s) (h' : SameTexts s t) : SameTexts r t :=
  fun u => (h u).trans (h' u)

theorem SameTexts.seq (hr : SameTexts r r') (hs : SameTexts s s') :
    SameTexts (seq r s) (seq r' s') := by
  intro u
  simp only [matches_seq_iff, hr _, hs _]

theorem sameTexts_empty_seq (s : Regex) : SameTexts (seq empty s) s := by
  intro u
  simp [matches_seq_iff, matches_empty_iff]

theorem sameTexts_seq_empty (r : Regex) : SameTexts (seq r empty) r := by
  intro u
  simp [matches_seq_iff, matches_empty_iff]

theorem sameTexts_seq_assoc (r s t : Regex) :
    SameTexts (Regex.seq r (Regex.seq s t)) (Regex.seq (Regex.seq r s) t) := by
  intro u
  simp only [matches_seq_iff]
  constructor
  · rintro ⟨a, _, ha, ⟨b, c, hb, hc, rfl⟩, rfl⟩
    exact ⟨a ++ b, c, ⟨a, b, ha, hb, rfl⟩, hc, (List.append_assoc a b c).symm⟩
  · rintro ⟨_, c, ⟨a, b, ha, hb, rfl⟩, hc, rfl⟩
    exact ⟨a, b ++ c, ha, ⟨b, c, hb, hc, rfl⟩, List.append_assoc a b c⟩

theorem sameTexts_alt_seq (r s t : Regex) :
    SameTexts (alt (Regex.seq r t) (Regex.seq s t)) (Regex.seq (alt r s) t) := by
  intro u
  simp only [matches_alt_iff, matches_seq_iff, or_and_right, exists_or]

theorem sameTexts_alt_oneOf (cs ds : List Char) :
    SameTexts (alt (char (.oneOf cs)) (char (.oneOf ds))) (char (.oneOf (cs ++ ds))) := by
  intro u
  simp only [matches_alt_iff, matches_char_iff, CharClass.contains_oneOf, List.mem_append,
    or_and_right, exists_or]

theorem sameTexts_one_or_two (k : CharClass) :
    SameTexts (Regex.seq ((char k).times 1) ((char k).upTo 1))
      (Regex.seq (char k) (char k).opt) := by
  refine (sameTexts_seq_empty (char k)).seq ?_
  intro u
  have h := sameTexts_seq_empty (char k) u
  exact matches_opt_iff.trans ((or_congr_left h).trans matches_opt_iff.symm)

end SameTexts

/-! ## Notations of an expression -/

/-- Whether a text spells an expression, up to one with the same texts. Notations do not keep how
parts in a row are grouped. -/
def IsNotation (u : List Char) (r : Regex) : Prop := ∃ q, Spells u q ∧ SameTexts q r

section IsNotation

variable {u v : List Char} {r s : Regex}

theorem IsNotation.congr (hu : IsNotation u r) (h : SameTexts r s) : IsNotation u s :=
  hu.imp fun _ hq => ⟨hq.1, hq.2.trans h⟩

theorem isNotation_of_part (hu : SpellsPart u r) : IsNotation u r :=
  ⟨seq r empty, by simpa using Spells.cons hu .empty, sameTexts_seq_empty r⟩

theorem isNotation_append_of_spells (hu : Spells u r) (hv : Spells v s) :
    IsNotation (u ++ v) (seq r s) := by
  induction hu with
  | empty => exact ⟨s, hv, (sameTexts_empty_seq s).symm⟩
  | @cons w _ r' _ hw _ ih =>
    obtain ⟨q, hq, hsame⟩ := ih
    refine ⟨seq r' q, ?_, ((SameTexts.refl r').seq hsame).trans (sameTexts_seq_assoc _ _ _)⟩
    rw [List.append_assoc]
    exact .cons hw hq

theorem IsNotation.append (hu : IsNotation u r) (hv : IsNotation v s) :
    IsNotation (u ++ v) (seq r s) := by
  obtain ⟨q, hq, hr⟩ := hu
  obtain ⟨q', hq', hs⟩ := hv
  exact (isNotation_append_of_spells hq hq').congr (hr.seq hs)

end IsNotation

end Regex

namespace DatePattern

open Regex

/-! ## The written shape -/

theorem isNotation_digits (n : Nat) :
    IsNotation ('\\' :: 'd' :: '{' :: (toString n).toList ++ ['}']) (Token.digit.times n) :=
  isNotation_of_part (.times n .decimalDigit)

theorem isNotation_numberShape (padded : Bool) :
    IsNotation (Token.numberShapeText padded).toList (Token.numberShape padded) := by
  cases padded with
  | true => exact isNotation_digits 2
  | false => exact (isNotation_of_part (.between 1 1 .decimalDigit)).congr (sameTexts_one_or_two _)

theorem isNotation_nameShape (full : Bool) :
    IsNotation (Token.nameShapeText full).toList (Token.nameShape full) := by
  cases full with
  | true => exact isNotation_of_part (.plus .asciiLetter)
  | false => exact isNotation_of_part (.times 3 .asciiLetter)

theorem isNotation_meridiem : IsNotation "(?i:am|pm)".toList Token.meridiem.shape := by
  have hfirst := sameTexts_alt_oneOf ['a', 'A'] ['p', 'P']
  exact (isNotation_of_part .meridiem).congr
    ((sameTexts_alt_seq _ _ _).trans (hfirst.seq (.refl _)))

theorem isNotation_timestamp : IsNotation "-?\\d+".toList Token.timestamp.shape := by
  have hminus : CharClass.Spells ['-'] (.oneOf ['-']) := .plain (by decide)
  exact (isNotation_of_part (.opt hminus)).append (isNotation_of_part (.plus .decimalDigit))

theorem isNotation_offset (colon : Bool) :
    IsNotation (Token.offset colon).shapeText.toList (Token.offset colon).shape := by
  have hsign : IsNotation "[+-]".toList Token.sign := isNotation_of_part (.once .sign)
  cases colon with
  | true =>
    have hcolon : IsNotation [':'] (exactly ':') :=
      isNotation_of_part (.once (.plain (by decide)))
    have htwo := isNotation_digits 2
    exact hsign.append (htwo.append (hcolon.append htwo))
  | false => exact hsign.append (isNotation_digits 4)

theorem Token.isNotation_shapeText (t : Token) : IsNotation t.shapeText.toList t.shape := by
  cases t with
  | day padded => exact isNotation_numberShape padded
  | month padded => exact isNotation_numberShape padded
  | year => exact isNotation_digits 4
  | yearOfCentury => exact isNotation_digits 2
  | hour padded => exact isNotation_numberShape padded
  | clockHour padded => exact isNotation_numberShape padded
  | minute => exact isNotation_digits 2
  | second => exact isNotation_digits 2
  | meridiem => exact isNotation_meridiem
  | weekday full => cases full <;> exact isNotation_nameShape _
  | monthName full => cases full <;> exact isNotation_nameShape _
  | timestamp => exact isNotation_timestamp
  | milliseconds => exact isNotation_digits 3
  | microseconds => exact isNotation_digits 6
  | offset colon => exact isNotation_offset colon

theorem Piece.isNotation_shapeText (p : Piece) : IsNotation p.shapeText.toList p.shape := by
  cases p with
  | token t => exact t.isNotation_shapeText
  | literal c =>
    by_cases hc : c ∈ metaCharacters
    · have htext : (literal c).shapeText.toList = ['\\', c] := by simp [shapeText, hc]
      rw [htext]
      exact isNotation_of_part (.once (.escaped hc))
    · have htext : (literal c).shapeText.toList = [c] := by simp [shapeText, hc]
      have hplain : c ∉ operators := fun h => hc (List.mem_append_left _ h)
      rw [htext]
      exact isNotation_of_part (.once (.plain hplain))

/-- The written shape, without the marks at both ends, is a notation of the shape. -/
theorem isNotation_shapes (p : DatePattern) : IsNotation (shapes p.pieces) p.shape := by
  rw [shape]
  induction p.pieces with
  | nil => exact ⟨.empty, .empty, .refl _⟩
  | cons p ps ih => exact p.isNotation_shapeText.append ih

/-! ## The conversions -/

/-- The component that a conversion of one letter stands for. Padded numbers and plain ones have
the same conversion. -/
def Token.ofConversion? : Char → Option Token
  | 'd' => some (day false)
  | 'm' => some (month false)
  | 'Y' => some year
  | 'y' => some yearOfCentury
  | 'H' => some (hour false)
  | 'I' => some (clockHour false)
  | 'M' => some minute
  | 'S' => some second
  | 'p' => some meridiem
  | 'a' => some (weekday false)
  | 'A' => some (weekday true)
  | 'b' => some (monthName false)
  | 'B' => some (monthName true)
  | 's' => some timestamp
  | 'z' => some (offset false)
  | _ => none

/-- The pieces that a text of conversions stands for. A percent sign starts a conversion, and a
doubled one stands for itself. -/
def ofConversions? : List Char → Option (List Piece)
  | [] => some []
  | '%' :: '%' :: s => (ofConversions? s).map (.literal '%' :: ·)
  | '%' :: '3' :: 'f' :: s => (ofConversions? s).map (.token .milliseconds :: ·)
  | '%' :: '6' :: 'f' :: s => (ofConversions? s).map (.token .microseconds :: ·)
  | '%' :: ':' :: 'z' :: s => (ofConversions? s).map (.token (.offset true) :: ·)
  | '%' :: c :: s =>
    (Token.ofConversion? c).bind fun t => (ofConversions? s).map (.token t :: ·)
  | ['%'] => none
  | c :: s => (ofConversions? s).map (.literal c :: ·)

def Token.unpadded : Token → Token
  | day _ => day false
  | month _ => month false
  | hour _ => hour false
  | clockHour _ => clockHour false
  | t => t

def Piece.unpadded : Piece → Piece
  | token t => token t.unpadded
  | literal c => literal c

theorem Piece.read_unpadded (p : Piece) : p.unpadded.read = p.read := by
  cases p with
  | literal c => rfl
  | token t => cases t <;> rfl

theorem ofPieces_map_unpadded (ps : List Piece) (r : Reading) (s : List Char) :
    Reading.ofPieces (ps.map Piece.unpadded) r s = Reading.ofPieces ps r s := by
  induction ps generalizing r s with
  | nil => rfl
  | cons p ps ih => simp only [List.map_cons, Reading.ofPieces, Piece.read_unpadded, ih]

theorem ofConversions?_literal {c : Char} (hc : c ≠ '%') (s : List Char) :
    ofConversions? (c :: s) = (ofConversions? s).map (.literal c :: ·) := by
  simp [ofConversions?, hc]

theorem ofConversions?_append (p : Piece) (s : List Char) :
    ofConversions? (p.conversion.toList ++ s) = (ofConversions? s).map (p.unpadded :: ·) := by
  cases p with
  | literal c =>
    by_cases hc : c = '%'
    · subst hc
      rfl
    · have htext : (Piece.literal c).conversion.toList = [c] := by simp [Piece.conversion, hc]
      rw [htext]
      exact ofConversions?_literal hc s
  | token t =>
    cases t with
    | day padded => cases padded <;> rfl
    | month padded => cases padded <;> rfl
    | hour padded => cases padded <;> rfl
    | clockHour padded => cases padded <;> rfl
    | weekday full => cases full <;> rfl
    | monthName full => cases full <;> rfl
    | offset colon => cases colon <;> rfl
    | _ => rfl

theorem ofConversions?_conversions (ps : List Piece) :
    ofConversions? (conversions ps) = some (ps.map Piece.unpadded) := by
  induction ps with
  | nil => rfl
  | cons p ps ih =>
    rw [conversions, List.flatMap_cons, ofConversions?_append, ← conversions, ih]
    rfl

/-- What the reader takes is what it takes along the text of conversions. -/
theorem read?_eq_ofConversions? (p : DatePattern) (value : List Char) :
    p.read? value = (ofConversions? p.conversionText.toList).bind fun ps =>
      Reading.ofPieces ps {} value := by
  rw [toList_conversionText, ofConversions?_conversions, Option.bind_some, ofPieces_map_unpadded,
    read?]

/-! ## Both of them -/

/-- A value is accepted if the reader takes it along the one text and finds it consistent, and the
other one describes it from the first character to the last. -/
theorem accepts_iff_notations (p : DatePattern) :
    ∃ ps shape r, ofConversions? p.conversionText.toList = some ps ∧
      p.shapeText.toList = "\\A".toList ++ shape ++ "\\z".toList ∧ Spells shape r ∧
      ∀ value, p.accepts value = true ↔
        (∃ q, Reading.ofPieces ps {} value.toList = some q ∧ p.isConsistent q = true) ∧
          Matches r value.toList := by
  obtain ⟨r, hr, hsame⟩ := isNotation_shapes p
  have hps : ofConversions? p.conversionText.toList = some (p.pieces.map Piece.unpadded) := by
    rw [toList_conversionText, ofConversions?_conversions]
  refine ⟨_, shapes p.pieces, r, hps, ?_, hr, ?_⟩
  · rw [toList_shapeText, List.append_assoc]
  · intro value
    rw [accepts, Bool.and_eq_true, Option.any_eq_true, Regex.accepts_iff, hsame,
      ofPieces_map_unpadded, read?]

end DatePattern

end FormCheck
