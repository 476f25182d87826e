import FormCheck.Json.Lexer
import FormCheck.Json.Printer
import Mathlib.Data.List.Forall2

/-!
# Texts that spell tokens

The printer escapes what a string may not hold as it is, and sets blanks between the tokens of a
value. The lexer takes back the string and skips the blanks. A text spells a list of tokens if the
lexer takes just these from it, whatever comes after, so that the texts of two lists can be put
one behind the other.

## Main definitions

* `Json.Spells`: the texts that spell a list of tokens.

## Main results

* `Json.takeString_quote`: a quoted string is taken back.
* `Json.spells_quote`, `Json.spells_member`, `Json.spells_block`: what quoted strings, members and
  blocks of parts spell.
* `Json.tokens?_of_spells`: the lexer finds the tokens that a whole text spells.
-/

namespace FormCheck.Json

/-! ## Strings -/

/-- A unit below the surrogates is a character, whatever follows. -/
theorem decodeUnits?_unit_cons {n : Nat} (h : n < 0xd800) (us : List StringUnit) :
    decodeUnits? (.unit n :: us) = (decodeUnits? us).map (Char.ofNat n :: ·) := by
  have hhigh : isHighSurrogate n = false := by
    simp [isHighSurrogate]
    omega
  have hlow : isLowSurrogate n = false := by
    simp [isLowSurrogate]
    omega
  match us with
  | [] => simp [decodeUnits?, hhigh, hlow]
  | .char c :: us => simp [decodeUnits?, hhigh, hlow]
  | .unit m :: us => simp [decodeUnits?, hhigh, hlow]

theorem takeUnits_plain {c : Char} (hq : c ≠ '"') (hb : c ≠ '\\') (hc : ¬c.toNat < 0x20)
    (s : List Char) :
    takeUnits (c :: s) = (takeUnits s).map fun p => (.char c :: p.1, p.2) := by
  rw [takeUnits, if_neg (by simp [hb, hc])]
  · cases takeUnits s <;> rfl
  · simpa using hq
  · simp [hb]
  · simp [hb]

theorem takeUnits_shortEscape {c e : Char} (h : shortEscape? c = some e) (s : List Char) :
    takeUnits ('\\' :: c :: s) = (takeUnits s).map fun p => (.char e :: p.1, p.2) := by
  have hu : c ≠ 'u' := by
    rintro rfl
    cases h
  rw [takeUnits, h]
  · cases takeUnits s <;> rfl
  · simp [hu]

theorem takeUnits_fourHexDigits {n : Nat} (h : n < 65536) (s : List Char) :
    takeUnits ('\\' :: 'u' :: (Text.fourHexDigits n ++ s)) =
      (takeUnits s).map fun p => (.unit n :: p.1, p.2) := by
  have hnumber := Text.hexNumber?_fourHexDigits h
  rw [Text.fourHexDigits] at hnumber ⊢
  simp only [List.cons_append, List.nil_append, takeUnits, hnumber, Option.map_eq_bind]
  rfl

/-- A character has a short escape, or is a control that is written by its number, or is written
as it is. -/
theorem quoteChar_cases (c : Char) :
    (∃ d, shortEscape? d = some c ∧ quoteChar c = ['\\', d]) ∨
      (c.toNat < 0x20 ∧ quoteChar c = '\\' :: 'u' :: Text.fourHexDigits c.toNat) ∨
      ((c ≠ '"' ∧ c ≠ '\\' ∧ ¬c.toNat < 0x20) ∧ quoteChar c = [c]) := by
  by_cases hshort : ∃ d, shortEscape? d = some c ∧ quoteChar c = ['\\', d]
  · exact .inl hshort
  -- None of the characters with a short escape is left.
  have hne : ∀ d e, shortEscape? d = some e → quoteChar e = ['\\', d] → c ≠ e := by
    rintro d e hd he rfl
    exact hshort ⟨d, hd, he⟩
  have hquote : c ≠ '"' := hne '"' '"' rfl rfl
  have hbackslash : c ≠ '\\' := hne '\\' '\\' rfl rfl
  have hrest : quoteChar c =
      if c.toNat < 0x20 then '\\' :: 'u' :: Text.fourHexDigits c.toNat else [c] := by
    rw [quoteChar, if_neg hquote, if_neg hbackslash, if_neg (hne 'b' '\x08' rfl rfl),
      if_neg (hne 'f' '\x0c' rfl rfl), if_neg (hne 'n' '\n' rfl rfl),
      if_neg (hne 'r' '\r' rfl rfl), if_neg (hne 't' '\t' rfl rfl)]
  by_cases hcontrol : c.toNat < 0x20
  · exact .inr (.inl ⟨hcontrol, by rw [hrest, if_pos hcontrol]⟩)
  · exact .inr (.inr ⟨⟨hquote, hbackslash, hcontrol⟩, by rw [hrest, if_neg hcontrol]⟩)

/-- A written character is one unit, which stands for the character. -/
theorem exists_unit_quoteChar (c : Char) :
    ∃ u, (∀ s, takeUnits (quoteChar c ++ s) = (takeUnits s).map fun p => (u :: p.1, p.2)) ∧
      ∀ us, decodeUnits? (u :: us) = (decodeUnits? us).map (c :: ·) := by
  rcases quoteChar_cases c with ⟨d, hd, hc⟩ | ⟨hlt, hc⟩ | ⟨⟨hquote, hbackslash, hlt⟩, hc⟩
  · rw [hc]
    exact ⟨.char c, takeUnits_shortEscape hd, fun us => rfl⟩
  · rw [hc]
    refine ⟨.unit c.toNat, takeUnits_fourHexDigits (by omega), ?_⟩
    intro us
    rw [decodeUnits?_unit_cons (by omega), Char.ofNat_toNat]
  · rw [hc]
    exact ⟨.char c, takeUnits_plain hquote hbackslash hlt, fun us => rfl⟩

theorem exists_units_flatMap_quoteChar (s rest : List Char) :
    ∃ us, takeUnits (s.flatMap quoteChar ++ '"' :: rest) = some (us, rest) ∧
      decodeUnits? us = some s := by
  induction s with
  | nil => exact ⟨[], rfl, rfl⟩
  | cons c s ih =>
    obtain ⟨us, htake, hdecode⟩ := ih
    obtain ⟨u, hu, hc⟩ := exists_unit_quoteChar c
    refine ⟨u :: us, ?_, ?_⟩
    · rw [List.flatMap_cons, List.append_assoc, hu, htake, Option.map_some]
    · rw [hc, hdecode, Option.map_some]

theorem takeString_quote (s : String) (rest : List Char) :
    takeString (s.toList.flatMap quoteChar ++ '"' :: rest) = some (some s, rest) := by
  obtain ⟨us, htake, hdecode⟩ := exists_units_flatMap_quoteChar s.toList rest
  simp [takeString, htake, hdecode]

/-! ## Tokens -/

/-- Whether the lexer takes exactly the listed tokens from a text, whatever comes after. Its fuel
always exceeds what is left to take. -/
def Spells (text : List Char) (ts : List Token) : Prop :=
  ∀ rest fuel, (text ++ rest).length < fuel →
    ∃ fuel', rest.length < fuel' ∧
      tokensWithin? fuel (text ++ rest) = (tokensWithin? fuel' rest).map (ts ++ ·)

theorem tokens?_of_spells {text : List Char} {ts : List Token} (h : Spells text ts) :
    tokens? text = some ts := by
  obtain ⟨fuel, hfuel, heq⟩ := h [] (text.length + 1) (by simp)
  obtain ⟨fuel, rfl⟩ := Nat.exists_eq_add_one.mpr hfuel
  simpa [tokens?, tokensWithin?] using heq

theorem Spells.nil : Spells [] [] := fun rest fuel h => ⟨fuel, h, by simp⟩

theorem Spells.append {a b : List Char} {ts us : List Token} (ha : Spells a ts)
    (hb : Spells b us) : Spells (a ++ b) (ts ++ us) := by
  intro rest fuel h
  rw [List.append_assoc] at h ⊢
  obtain ⟨fuel₁, h₁, heq₁⟩ := ha (b ++ rest) fuel h
  obtain ⟨fuel₂, h₂, heq₂⟩ := hb rest fuel₁ h₁
  refine ⟨fuel₂, h₂, ?_⟩
  rw [heq₁, heq₂, Option.map_map]
  simp [Function.comp_def]

theorem spells_blank {c : Char} (h : isBlank c = true) : Spells [c] [] := by
  intro rest fuel hfuel
  obtain ⟨fuel, rfl⟩ := Nat.exists_eq_add_one.mpr (Nat.zero_lt_of_lt hfuel)
  refine ⟨fuel, by simpa using hfuel, ?_⟩
  simp [tokensWithin?, h]

theorem spells_token {c : Char} {s : List Char} {t : Token} (hc : isBlank c = false)
    (h : ∀ rest, takeToken (c :: s ++ rest) = some (t, rest)) : Spells (c :: s) [t] := by
  intro rest fuel hfuel
  obtain ⟨fuel, rfl⟩ := Nat.exists_eq_add_one.mpr (Nat.zero_lt_of_lt hfuel)
  refine ⟨fuel, ?_, ?_⟩
  · simp only [List.length_append, List.length_cons] at hfuel
    omega
  · have htake := h rest
    rw [List.cons_append] at htake ⊢
    simp only [tokensWithin?, hc, htake, Bool.false_eq_true, if_false, Option.bind_eq_bind,
      Option.bind_some, Option.map_eq_bind]
    rfl

theorem spells_quote (s : String) : Spells (quote s) [.string (some s)] := by
  refine spells_token rfl fun rest => ?_
  have htake : takeString (s.toList.flatMap quoteChar ++ ['"'] ++ rest) = some (some s, rest) := by
    rw [List.append_assoc]
    exact takeString_quote s rest
  exact congrArg (Option.map fun p => (Token.string p.1, p.2)) htake

theorem spells_char {c : Char} {t : Token} (hc : isBlank c = false)
    (h : ∀ rest, takeToken (c :: rest) = some (t, rest)) : Spells [c] [t] :=
  spells_token hc h

theorem spells_comma : Spells [','] [.comma] := spells_char rfl fun _ => rfl

theorem spells_colon : Spells [':'] [.colon] := spells_char rfl fun _ => rfl

theorem spells_replicate_blank (n : Nat) : Spells (List.replicate n ' ') [] := by
  induction n with
  | zero => exact .nil
  | succ n ih =>
    have hblank : Spells [' '] [] := spells_blank rfl
    exact hblank.append ih

theorem spells_newline (level : Nat) : Spells (newline level) [] := by
  have hfeed : Spells ['\n'] [] := spells_blank rfl
  exact hfeed.append (spells_replicate_blank (2 * level))

/-! ## Parts -/

/-- A member of an object, whatever blanks stand around its colon. -/
theorem spells_member (name : String) {colon value : List Char} {ts : List Token}
    (hcolon : Spells colon [.colon]) (h : Spells value ts) :
    Spells (quote name ++ (colon ++ value)) (.string (some name) :: .colon :: ts) :=
  (spells_quote name).append (hcolon.append h)

theorem spells_intercalate {sep : List Char} {us : List Token} (hsep : Spells sep us)
    {parts : List (List Char)} {tss : List (List Token)} (h : List.Forall₂ Spells parts tss) :
    Spells (sep.intercalate parts) (us.intercalate tss) := by
  induction h with
  | nil => exact .nil
  | @cons part ts parts tss hpart hrest ih =>
    cases hrest with
    | nil => simpa using hpart
    | cons =>
      rw [List.intercalate_cons_cons, List.intercalate_cons_cons]
      exact (hpart.append hsep).append ih

/-- Parts between brackets, each on a line of its own. -/
theorem spells_block {level : Nat} {opening closing : Char} {o c : Token}
    (ho : Spells [opening] [o]) (hc : Spells [closing] [c]) {parts : List (List Char)}
    {tss : List (List Token)} (h : List.Forall₂ Spells parts tss) :
    Spells (block level opening closing parts) (o :: [.comma].intercalate tss ++ [c]) := by
  have hsep : Spells (',' :: newline (level + 1)) [.comma] :=
    spells_comma.append (spells_newline (level + 1))
  have hparts := spells_intercalate hsep h
  have hopen := ho.append (spells_newline (level + 1))
  have hclose := (spells_newline level).append hc
  cases h with
  | nil => exact ho.append hc
  | cons => simpa [block] using (hopen.append hparts).append hclose

end FormCheck.Json
