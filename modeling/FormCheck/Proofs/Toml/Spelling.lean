import FormCheck.Toml.Document
import Mathlib.Data.List.Forall2

/-!
# Texts that spell statements

A basic string can be spelled in many ways: a character that needs no escape may have one all the
same, and most characters have several. Whatever the spelling is, the reader takes back the string.
So it does with headers and entries, each on a line of its own.

## Main definitions

* `Toml.SpellsChar`, `Toml.Spells`, `Toml.Quotes`: the spellings of characters, texts and strings.
* `Toml.SpellsLine`: the lines that spell a header or an entry.

## Main results

* `Toml.takeBasic_of_spells`: a spelled text is taken back.
* `Toml.takeStatement_of_spellsLine`: so is a spelled statement.
* `Toml.statements?_of_spellsLines`: the statements of a text of such lines.
* `Toml.exists_spells`: every text has a spelling.
-/

namespace FormCheck.Toml

/-! ## Spellings -/

/-- The characters that a basic string may only hold as escapes. -/
def needsEscape (c : Char) : Bool := c == '"' || c == '\\' || c.toNat < 0x20 || c.toNat == 0x7f

/-- The escapes of one letter, with the characters that they stand for. -/
def shortEscapes : List (Char × Char) :=
  [('b', '\x08'), ('t', '\t'), ('n', '\n'), ('f', '\x0c'), ('r', '\r'), ('e', '\x1b'), ('"', '"'),
    ('\\', '\\')]

/-- The letters of the escapes by code point, with the number of their digits. -/
def numericEscapes : List (Char × Nat) := [('x', 2), ('u', 4), ('U', 8)]

inductive SpellsChar (c : Char) : List Char → Prop where
  | plain (h : needsEscape c = false) : SpellsChar c [c]
  | short {mark} (h : (mark, c) ∈ shortEscapes) : SpellsChar c ['\\', mark]
  | numeric {mark digits} (h : (mark, digits.length) ∈ numericEscapes)
      (hd : Text.hexNumber? digits = some c.toNat) : SpellsChar c ('\\' :: mark :: digits)

inductive Spells : List Char → List Char → Prop where
  | nil : Spells [] []
  | cons {c s u t} (hc : SpellsChar c u) (h : Spells s t) : Spells (c :: s) (u ++ t)

/-- Whether a text is a basic string. -/
def Quotes (s : String) (t : List Char) : Prop := ∃ u, Spells s.toList u ∧ t = '"' :: u ++ ['"']

/-! ## Strings -/

theorem takeCodePoint_append {c : Char} {digits : List Char}
    (h : Text.hexNumber? digits = some c.toNat) (rest : List Char) :
    takeCodePoint digits.length (digits ++ rest) = some (c, rest) := by
  have hchar : charOf? c.toNat = some c := by
    have hvalid : c.toNat.isValidChar := c.valid
    rw [charOf?, if_pos hvalid, Char.ofNat_toNat]
  simp [takeCodePoint, h, hchar]

theorem takeEscape_short {mark c : Char} (h : (mark, c) ∈ shortEscapes) (rest : List Char) :
    takeEscape (mark :: rest) = some (c, rest) := by
  simp only [shortEscapes, List.mem_cons, List.not_mem_nil, or_false, Prod.mk.injEq] at h
  rcases h with ⟨rfl, rfl⟩ | ⟨rfl, rfl⟩ | ⟨rfl, rfl⟩ | ⟨rfl, rfl⟩ | ⟨rfl, rfl⟩ | ⟨rfl, rfl⟩ |
    ⟨rfl, rfl⟩ | ⟨rfl, rfl⟩ <;> rfl

theorem takeEscape_numeric {mark c : Char} {digits : List Char}
    (h : (mark, digits.length) ∈ numericEscapes) (hd : Text.hexNumber? digits = some c.toNat)
    (rest : List Char) : takeEscape (mark :: (digits ++ rest)) = some (c, rest) := by
  have htake := takeCodePoint_append hd rest
  simp only [numericEscapes, List.mem_cons, List.not_mem_nil, or_false, Prod.mk.injEq] at h
  rcases h with ⟨rfl, hlen⟩ | ⟨rfl, hlen⟩ | ⟨rfl, hlen⟩ <;> rwa [hlen] at htake

theorem takeBasic_escape {s r : List Char} {c : Char} (h : takeEscape s = some (c, r)) :
    takeBasic ('\\' :: s) = (takeBasic r).map fun p => (c :: p.1, p.2) := by
  rw [takeBasic]
  split
  · next hs => simp [h] at hs
  · next d r' hs =>
    rw [h] at hs
    cases hs
    rfl

theorem takeBasic_plain {c : Char} (h : needsEscape c = false) (s : List Char) :
    takeBasic (c :: s) = (takeBasic s).map fun p => (c :: p.1, p.2) := by
  simp only [needsEscape, Bool.or_eq_false_iff, beq_eq_false_iff_ne, decide_eq_false_iff_not] at h
  obtain ⟨⟨⟨hquote, hbackslash⟩, hcontrol⟩, hdelete⟩ := h
  have htext : isTextChar c = true := by
    simp [isTextChar, hdelete]
    omega
  rw [takeBasic, if_pos htext]
  · simpa using hquote
  · simpa using hbackslash

theorem takeBasic_spellsChar {c : Char} {u : List Char} (h : SpellsChar c u) (s : List Char) :
    takeBasic (u ++ s) = (takeBasic s).map fun p => (c :: p.1, p.2) := by
  cases h with
  | plain h => exact takeBasic_plain h s
  | short h => exact takeBasic_escape (takeEscape_short h s)
  | numeric h hd => exact takeBasic_escape (takeEscape_numeric h hd s)

theorem takeBasic_of_spells {s t : List Char} (h : Spells s t) (rest : List Char) :
    takeBasic (t ++ '"' :: rest) = some (s, rest) := by
  induction h with
  | nil => simp [takeBasic]
  | cons hc _ ih => rw [List.append_assoc, takeBasic_spellsChar hc, ih, Option.map_some]

/-- Two quotes in front of a spelled text are not the start of three. -/
theorem quote_quote_not_isPrefix {s t rest : List Char} (h : Spells s t)
    (hrest : rest.head? ≠ some '"') : ¬['"', '"'] <+: t ++ '"' :: rest := by
  cases h with
  | nil =>
    rintro ⟨r, hr⟩
    simp only [List.cons_append, List.nil_append, List.cons.injEq, true_and] at hr
    simp [← hr] at hrest
  | cons hc _ =>
    rintro ⟨r, hr⟩
    cases hc with
    | plain hc =>
      obtain ⟨rfl, -⟩ := List.cons.inj hr
      cases hc
    | short => cases hr
    | numeric => cases hr

theorem takeString_of_quotes {s : String} {t rest : List Char} (h : Quotes s t)
    (hrest : rest.head? ≠ some '"') : takeString (t ++ rest) = some (s.toList, rest) := by
  obtain ⟨u, hu, rfl⟩ := h
  have htake := takeBasic_of_spells hu rest
  have hne := quote_quote_not_isPrefix hu hrest
  simp only [List.cons_append, List.append_assoc, List.nil_append]
  rw [takeString, htake]
  rintro r hr
  exact hne ⟨r, hr.symm⟩

theorem takeKey_of_quotes {s : String} {t rest : List Char} (h : Quotes s t)
    (hrest : rest.head? ≠ some '"') : takeKey (t ++ rest) = some (s, rest) := by
  obtain ⟨u, hu, rfl⟩ := h
  have htake := takeBasic_of_spells hu rest
  have hne := quote_quote_not_isPrefix hu hrest
  simp only [List.cons_append, List.append_assoc, List.nil_append]
  rw [takeKey, htake]
  · simp
  · rintro r hr
    exact hne ⟨r, hr.symm⟩

/-! ## Lines -/

/-- Whether a line spells a header with a bare key, or an entry whose key and value are basic
strings. -/
inductive SpellsLine : Statement → List Char → Prop where
  | header {name : String} (hne : name.toList ≠ [])
      (hbare : ∀ c ∈ name.toList, isBareChar c = true) :
      SpellsLine (.table [name]) ('[' :: name.toList ++ [']', '\n'])
  | entry {key value : String} {k v : List Char} (hk : Quotes key k) (hv : Quotes value v) :
      SpellsLine (.entry [key] (.string value)) (k ++ ' ' :: '=' :: ' ' :: v ++ ['\n'])

theorem dropBlanks_cons {c : Char} (h : isBlank c = false) (s : List Char) :
    dropBlanks (c :: s) = c :: s := by
  simp [dropBlanks, h]

theorem dropBlanks_quotes {s : String} {t : List Char} (h : Quotes s t) (rest : List Char) :
    dropBlanks (t ++ rest) = t ++ rest := by
  obtain ⟨u, -, rfl⟩ := h
  exact dropBlanks_cons rfl _

/-- A key that no dot follows is the whole path. -/
theorem takeKeyPath_of_takeKey {key : String} {s r : List Char}
    (h : takeKey (dropBlanks s) = some (key, r)) (hdot : (dropBlanks r).head? ≠ some '.') :
    takeKeyPath nestingLimit s = some ([key], dropBlanks r) := by
  rw [nestingLimit, takeKeyPath, h]
  simp only [Option.bind_eq_bind, Option.bind_some]
  split
  · next hr =>
    rw [hr] at hdot
    exact absurd rfl hdot
  · rfl

theorem takeValue_of_quotes {s : String} {t rest : List Char} (h : Quotes s t)
    (hrest : rest.head? ≠ some '"') : takeValue (t ++ rest) = some (.string s, rest) := by
  have htake := takeString_of_quotes h hrest
  obtain ⟨u, -, rfl⟩ := h
  rw [List.append_assoc, List.cons_append] at htake ⊢
  rw [takeValue, takeValueWithin]
  simp only [htake, Option.map_some, String.ofList_toList]

theorem takeEndOfLine_newline (rest : List Char) : takeEndOfLine ('\n' :: rest) = some rest := rfl

/-- A bare key is taken up to the first character that it may not hold. -/
theorem takeKey_bare {name : String} (hne : name.toList ≠ [])
    (hbare : ∀ c ∈ name.toList, isBareChar c = true) {d : Char} (hd : isBareChar d = false)
    (rest : List Char) : takeKey (name.toList ++ d :: rest) = some (name, d :: rest) := by
  have htake : (name.toList ++ d :: rest).takeWhile isBareChar = name.toList := by
    rw [List.takeWhile_append_of_pos hbare, List.takeWhile_cons_of_neg (by simp [hd]),
      List.append_nil]
  have hdrop : (name.toList ++ d :: rest).dropWhile isBareChar = d :: rest := by
    rw [List.dropWhile_append_of_pos hbare, List.dropWhile_cons_of_neg (by simp [hd])]
  obtain ⟨c, s, hname⟩ := List.exists_cons_of_ne_nil hne
  have hc : isBareChar c = true := hbare c (by simp [hname])
  -- A bare key starts with no quote of either kind.
  have hquote : c ≠ '"' := by
    rintro rfl
    cases hc
  have happostrophe : c ≠ '\x27' := by
    rintro rfl
    cases hc
  rw [takeKey]
  · simp only [htake, hdrop, String.ofList_toList]
    simp [hname]
  all_goals simp [hname, hquote, happostrophe]

theorem takeStatement_header {name : String} (hne : name.toList ≠ [])
    (hbare : ∀ c ∈ name.toList, isBareChar c = true) (rest : List Char) :
    takeStatement ('[' :: name.toList ++ [']', '\n'] ++ rest) = some (.table [name], rest) := by
  obtain ⟨c, s, hname⟩ := List.exists_cons_of_ne_nil hne
  have hc : isBareChar c = true := hbare c (by simp [hname])
  have hbracket : c ≠ '[' := by
    rintro rfl
    cases hc
  have hblank : dropBlanks (name.toList ++ ']' :: '\n' :: rest) =
      name.toList ++ ']' :: '\n' :: rest := by
    have hc : isBlank c = false := by
      rw [isBlank, Bool.or_eq_false_iff, beq_eq_false_iff_ne, beq_eq_false_iff_ne]
      constructor <;> rintro rfl <;> cases hc
    rw [hname, List.cons_append, dropBlanks_cons hc]
  have hbracket' : isBareChar ']' = false := rfl
  have hkey := takeKey_bare hne hbare hbracket' ('\n' :: rest)
  rw [← hblank] at hkey
  have hpath := takeKeyPath_of_takeKey hkey (by simp [dropBlanks, isBlank])
  have htext : '[' :: name.toList ++ [']', '\n'] ++ rest =
      '[' :: (name.toList ++ ']' :: '\n' :: rest) := by
    simp
  rw [htext, takeStatement, hpath]
  · rfl
  · rintro r hr
    rw [hname] at hr
    simp [hbracket] at hr

theorem takeStatement_entry {key value : String} {k v : List Char} (hk : Quotes key k)
    (hv : Quotes value v) (rest : List Char) :
    takeStatement (k ++ ' ' :: '=' :: ' ' :: v ++ ['\n'] ++ rest) =
      some (.entry [key] (.string value), rest) := by
  have hkey : takeKey (dropBlanks (k ++ ' ' :: '=' :: ' ' :: (v ++ '\n' :: rest))) =
      some (key, ' ' :: '=' :: ' ' :: (v ++ '\n' :: rest)) := by
    rw [dropBlanks_quotes hk]
    exact takeKey_of_quotes hk (by simp)
  have hpath := takeKeyPath_of_takeKey hkey (by simp [dropBlanks, isBlank])
  have hvalue : takeValue (dropBlanks (' ' :: (v ++ '\n' :: rest))) =
      some (.string value, '\n' :: rest) := by
    have hdrop : dropBlanks (' ' :: (v ++ '\n' :: rest)) = v ++ '\n' :: rest :=
      dropBlanks_quotes hv ('\n' :: rest)
    rw [hdrop]
    exact takeValue_of_quotes hv (by simp)
  have htext : k ++ ' ' :: '=' :: ' ' :: v ++ ['\n'] ++ rest =
      k ++ ' ' :: '=' :: ' ' :: (v ++ '\n' :: rest) := by simp
  have hequals : takeChar '=' (dropBlanks (' ' :: '=' :: ' ' :: (v ++ '\n' :: rest))) =
      some (' ' :: (v ++ '\n' :: rest)) := rfl
  obtain ⟨u, -, rfl⟩ := hk
  rw [htext, takeStatement, hpath]
  · simp only [Option.bind_eq_bind, Option.bind_some, hequals, hvalue, takeEndOfLine_newline,
      Option.pure_def]
  all_goals rintro s hs; cases hs

theorem takeStatement_of_spellsLine {x : Statement} {line : List Char} (h : SpellsLine x line)
    (rest : List Char) : takeStatement (line ++ rest) = some (x, rest) := by
  cases h with
  | header hne hbare => exact takeStatement_header hne hbare rest
  | entry hk hv => exact takeStatement_entry hk hv rest

/-! ## Texts -/

/-- A line starts with the bracket of its header or the quote of its key. -/
theorem exists_cons_of_spellsLine {x : Statement} {line : List Char} (h : SpellsLine x line) :
    ∃ c s, line = c :: s ∧ (c = '[' ∨ c = '"') := by
  cases h with
  | header => exact ⟨_, _, rfl, .inl rfl⟩
  | entry hk =>
    obtain ⟨u, -, rfl⟩ := hk
    exact ⟨_, _, rfl, .inr rfl⟩

theorem statementsWithin?_cons {x : Statement} {line : List Char} (h : SpellsLine x line)
    (fuel : Nat) (rest : List Char) :
    statementsWithin? (fuel + 1) (line ++ rest) =
      (statementsWithin? fuel rest).map (x :: ·) := by
  have htake := takeStatement_of_spellsLine h rest
  obtain ⟨c, s, rfl, hc⟩ := exists_cons_of_spellsLine h
  have hskip : skipTrivia false (c :: (s ++ rest)) = some (c :: (s ++ rest)) := by
    rcases hc with rfl | rfl <;> rfl
  rw [List.cons_append] at htake ⊢
  rw [statementsWithin?, hskip]
  simp only [Option.bind_eq_bind, Option.bind_some, htake]
  cases statementsWithin? fuel rest <;> rfl

/-- Each line is a statement, and as each has a character, the fuel lasts. -/
theorem statements?_of_spellsLines {xs : List Statement} {lines : List (List Char)}
    (h : List.Forall₂ SpellsLine xs lines) : statements? lines.flatten = some xs := by
  suffices hfuel : ∀ fuel, lines.flatten.length < fuel →
      statementsWithin? fuel lines.flatten = some xs from hfuel _ (Nat.lt_succ_self _)
  induction h with
  | nil =>
    intro fuel hfuel
    obtain ⟨fuel, rfl⟩ := Nat.exists_eq_add_one.mpr (Nat.zero_lt_of_lt hfuel)
    rfl
  | @cons x line xs lines hline _ ih =>
    intro fuel hfuel
    obtain ⟨fuel, rfl⟩ := Nat.exists_eq_add_one.mpr (Nat.zero_lt_of_lt hfuel)
    have hlen : lines.flatten.length < fuel := by
      obtain ⟨c, s, rfl, -⟩ := exists_cons_of_spellsLine hline
      simp only [List.flatten_cons, List.length_append, List.length_cons] at hfuel
      omega
    rw [List.flatten_cons, statementsWithin?_cons hline, ih fuel hlen, Option.map_some]

/-! ## Spellings of all texts -/

/-- One of the spellings of a character. -/
def escapeChar (c : Char) : List Char :=
  if needsEscape c then '\\' :: 'u' :: Text.fourHexDigits c.toNat else [c]

theorem spellsChar_escapeChar (c : Char) : SpellsChar c (escapeChar c) := by
  rw [escapeChar]
  split
  · next h =>
    have hlt : c.toNat < 65536 := by
      simp only [needsEscape, Bool.or_eq_true, beq_iff_eq, decide_eq_true_eq] at h
      rcases h with ((rfl | rfl) | h) | h
      · decide
      · decide
      · omega
      · omega
    have hwidth : ('u', (Text.fourHexDigits c.toNat).length) ∈ numericEscapes := by
      simp [Text.fourHexDigits, numericEscapes]
    exact .numeric hwidth (Text.hexNumber?_fourHexDigits hlt)
  · next h => exact .plain (by simpa using h)

theorem exists_spells (s : List Char) : ∃ t, Spells s t := by
  induction s with
  | nil => exact ⟨[], .nil⟩
  | cons c s ih =>
    obtain ⟨t, ht⟩ := ih
    exact ⟨_, .cons (spellsChar_escapeChar c) ht⟩

theorem exists_quotes (s : String) : ∃ t, Quotes s t := by
  obtain ⟨u, hu⟩ := exists_spells s.toList
  exact ⟨_, u, hu, rfl⟩

theorem exists_spellsLine_entry (key value : String) :
    ∃ line, SpellsLine (.entry [key] (.string value)) line := by
  obtain ⟨k, hk⟩ := exists_quotes key
  obtain ⟨v, hv⟩ := exists_quotes value
  exact ⟨_, .entry hk hv⟩

end FormCheck.Toml
