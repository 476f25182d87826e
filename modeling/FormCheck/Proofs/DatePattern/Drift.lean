import FormCheck.Proofs.DatePattern.Consumption

/-!
# Where the reader and the shape drift apart

The shape of a pattern and the reader may cut a value in different places: the reader takes blanks,
signs and as many digits as it can, while a full name has any number of letters in its shape. Some
of these differences cannot be made up for. If the reader is ahead by a sign, or behind by a letter
and a blank, then it stays so piece by piece, and does not come to the end of the value together
with the shape.

## Main definitions

* `IsMark`, `countSigns`: the characters of numbers and offsets, and the signs among them.

## Main results

* `Token.IsSlice.documented`, `Token.IsSlice.letters`: what the shape says of a slice.
* `not_reads_of_signs`: a value is not read if the reader is ahead by a sign.
* `not_reads_of_blanks`: a value is not read if the reader is behind by a letter and a blank.
-/

namespace FormCheck.DatePattern

open Text

/-! ## Slices of tokens -/

section Slice

variable {t : Token} {u : List Char}

theorem isSlice_offset {colon : Bool} (h : (Token.offset colon).IsSlice u) :
    WritesOffset colon u := by
  obtain ⟨hmatch, hforeign⟩ := h
  have htwo : ∀ {v}, Regex.Matches (Token.digit.times 2) v → (∀ c ∈ v, c ∈ u) → IsNumber 2 2 v := by
    intro v hv hsub
    exact isSlice_times_digit_iff.mp ⟨hv, fun c hc => hforeign c (hsub c hc)⟩
  cases colon with
  | true =>
    simp only [Token.shape, Token.sign, Regex.matches_seq_iff, Regex.matches_char_iff,
      CharClass.contains_oneOf, Regex.matches_exactly_iff] at hmatch
    obtain ⟨_, _, ⟨sign, hs, rfl⟩, ⟨hours, _, hh, ⟨_, minutes, rfl, hm, rfl⟩, rfl⟩, rfl⟩ := hmatch
    exact .mk (by simpa using hs) (htwo hh (by simp +contextual)) (htwo hm (by simp +contextual))
  | false =>
    simp only [Token.shape, Token.sign, Regex.matches_seq_iff, Regex.matches_char_iff,
      CharClass.contains_oneOf] at hmatch
    obtain ⟨_, ds, ⟨sign, hs, rfl⟩, hd, rfl⟩ := hmatch
    have hd : IsNumber 4 4 ds :=
      isSlice_times_digit_iff.mp ⟨hd, fun c hc => hforeign c (List.mem_append_right _ hc)⟩
    have hlen := hd.length_eq
    have hh : IsNumber 2 2 (ds.take 2) :=
      ⟨by simp [hlen], by simp [hlen], fun c hc => hd.isDigit c (List.mem_of_mem_take hc)⟩
    have hm : IsNumber 2 2 (ds.drop 2) :=
      ⟨by simp [hlen], by simp [hlen], fun c hc => hd.isDigit c (List.mem_of_mem_drop hc)⟩
    have hwrites : WritesOffset false (sign :: (ds.take 2 ++ ([] ++ ds.drop 2))) :=
      .mk (by simpa using hs) hh hm
    rwa [List.nil_append, List.take_append_drop] at hwrites

/-- The slices of tokens other than words have their forms. -/
theorem Token.IsSlice.documented (h : t.IsSlice u) (hw : t.isWord = false) (ht : t ≠ timestamp) :
    t.Documented u := by
  cases t with
  | day | month | hour | clockHour => exact isSlice_numberShape_iff.mp h
  | yearOfCentury | minute | second | year | milliseconds | microseconds =>
    exact isSlice_times_digit_iff.mp h
  | offset colon => exact isSlice_offset h
  | timestamp => exact absurd rfl ht
  | meridiem | weekday | monthName => cases hw

theorem Token.IsSlice.letters (h : t.IsSlice u) (hw : t.isWord = true) :
    u ≠ [] ∧ ∀ c ∈ u, CharClass.asciiLetter.contains c = true := by
  cases t with
  | meridiem => exact h.of_isWord rfl rfl
  | weekday full | monthName full =>
    cases full with
    | true => exact Regex.matches_plus_char_iff.mp h.1
    | false => exact h.of_isWord rfl rfl
  | _ => cases hw

theorem Token.IsSlice.documented_of_width? {width : Nat} (h : t.IsSlice u)
    (ht : t.width? = some width) : t.Documented u := by
  refine h.documented ?_ ?_
  · cases t with
    | meridiem | weekday | monthName => cases ht
    | _ => rfl
  · rintro rfl
    cases ht

theorem Token.IsSlice.isNumber {width : Nat} (h : t.IsSlice u) (ht : t.width? = some width) :
    IsNumber 1 width u := (h.documented_of_width? ht).isNumber ht

end Slice

/-! ## A sign too many -/

/-- Whether a character may be taken for a number or an offset. -/
def IsMark (c : Char) : Prop := c.isDigit = true ∨ isBlank c = true ∨ c ∈ signs ∨ c = ':'

def countSigns (s : List Char) : Nat := s.countP (· ∈ signs)

theorem countSigns_append (s t : List Char) : countSigns (s ++ t) = countSigns s + countSigns t :=
  List.countP_append

theorem countSigns_eq_zero {s : List Char} (h : ∀ c ∈ s, c ∉ signs) : countSigns s = 0 :=
  List.countP_eq_zero.mpr fun c hc => by simp [h c hc]

theorem countSigns_of_isDigit {s : List Char} (h : ∀ c ∈ s, c.isDigit = true) :
    countSigns s = 0 := countSigns_eq_zero fun c hc => not_mem_signs_of_isDigit (h c hc)

theorem countSigns_pos {s : List Char} {c : Char} (hc : c ∈ s) (hs : c ∈ signs) :
    0 < countSigns s := List.countP_pos_iff.mpr ⟨c, hc, by simpa using hs⟩

theorem not_isMark_of_asciiLetter {c : Char} (h : CharClass.asciiLetter.contains c = true) :
    ¬IsMark c := by
  rintro (hd | hb | hs | rfl)
  · simp [not_isDigit_of_asciiLetter h] at hd
  · simp [isBlank_of_asciiLetter h] at hb
  · simp [not_asciiLetter_of_mem_signs hs] at h
  · exact absurd h (by decide)

section Signs

variable {p : Piece} {ps : List Piece} {u x w rest : List Char} {us : List (List Char)}

theorem WritesOffset.countSigns_le {colon : Bool} (h : WritesOffset colon u) :
    countSigns u ≤ 1 := by
  obtain ⟨-, hh, hm⟩ := h
  have hcolon : countSigns (if colon then [':'] else []) = 0 := by cases colon <;> decide
  rw [← List.singleton_append, countSigns_append, countSigns_append, countSigns_append, hcolon,
    countSigns_of_isDigit hh.isDigit, countSigns_of_isDigit hm.isDigit]
  exact List.countP_le_length

theorem WritesOffset.exists_cons {colon : Bool} (h : WritesOffset colon u) :
    ∃ sign v, u = sign :: v ∧ sign ∈ signs := by
  obtain ⟨rfl | rfl, -, -⟩ := h
  · exact ⟨'+', _, rfl, mem_signs_iff.mpr (.inl rfl)⟩
  · exact ⟨'-', _, rfl, mem_signs_iff.mpr (.inr (.inl rfl))⟩

/-- The reader takes all signs of a slice. -/
theorem Piece.countSigns_le (hu : p.IsSlice u) (hx : p.Takes x rest) :
    countSigns u ≤ countSigns x := by
  have hzero : countSigns u = 0 → countSigns u ≤ countSigns x := fun h => h ▸ Nat.zero_le _
  cases hx with
  | blank hc =>
    obtain rfl : u = [_] := hu
    refine hzero (countSigns_eq_zero (List.forall_mem_singleton.mpr fun hs => ?_))
    simp [not_isBlank_of_mem_signs hs] at hc
  | char =>
    obtain rfl : u = [_] := hu
    exact Nat.le_refl _
  | number ht => exact hzero (countSigns_of_isDigit (Token.IsSlice.isNumber hu ht).isDigit)
  | signedYear =>
    have hu : IsNumber 1 4 u := Token.IsSlice.isNumber hu rfl
    exact hzero (countSigns_of_isDigit hu.isDigit)
  | offset _ hs =>
    exact (isSlice_offset hu).countSigns_le.trans (countSigns_pos (by simp) hs)
  | word ht =>
    refine hzero (countSigns_eq_zero fun c hc hs => ?_)
    have := (Token.IsSlice.letters hu ht).2 c hc
    simp [not_asciiLetter_of_mem_signs hs] at this

/-- Where a slice starts with a mark, the reader takes marks only. -/
theorem Piece.isMark_of_takes (hu : p.IsSlice u) (hx : p.Takes x rest)
    (hhead : ∀ c ∈ u.head?, IsMark c) : ∀ c ∈ x, IsMark c := by
  cases hx with
  | blank _ hb => exact fun c hc => .inr (.inl (hb c hc))
  | char =>
    obtain rfl : u = [_] := hu
    exact List.forall_mem_singleton.mpr (hhead _ rfl)
  | number _ hb hd =>
    exact List.forall_mem_append.mpr
      ⟨fun c hc => .inr (.inl (hb c hc)), fun c hc => .inl (hd.isDigit c hc)⟩
  | signedYear hb hs hd =>
    exact List.forall_mem_append.mpr ⟨fun c hc => .inr (.inl (hb c hc)),
      List.forall_mem_cons.mpr ⟨.inr (.inr (.inl hs)), fun c hc => .inl (hd c hc)⟩⟩
  | offset hb hs hh hg hm =>
    have hgap : ∀ c, c = ':' ∨ isBlank c = true → IsMark c := by
      rintro c (hc | hc)
      · exact .inr (.inr (.inr hc))
      · exact .inr (.inl hc)
    simp only [List.forall_mem_append, List.forall_mem_cons]
    exact ⟨fun c hc => .inr (.inl (hb c hc)), .inr (.inr (.inl hs)),
      fun c hc => .inl (hh.isDigit c hc), fun c hc => hgap c (hg c hc),
      fun c hc => .inl (hm.isDigit c hc)⟩
  | word ht =>
    obtain ⟨hne, hletters⟩ := Token.IsSlice.letters hu ht
    obtain ⟨c, v, rfl⟩ := List.exists_cons_of_ne_nil hne
    exact absurd (hhead c rfl) (not_isMark_of_asciiLetter (hletters c List.mem_cons_self))

/-- If the reader has taken marks that the shape leaves, with a sign among them, it does not take
the rest: a sign is left until the end. -/
theorem not_reads_of_signs (h : List.Forall₂ Piece.IsSlice ps us) (hw : ∀ c ∈ w, IsMark c)
    (hs : 0 < countSigns w) (hleft : us.flatten = w ++ rest) : ¬Reads ps rest := by
  induction h generalizing w rest with
  | nil =>
    obtain ⟨rfl, -⟩ := List.append_eq_nil_iff.mp hleft.symm
    cases hs
  | @cons p u ps us hu _ ih =>
    intro hreads
    obtain ⟨x, s, rfl, hx, hread⟩ := reads_cons_iff.mp hreads
    rw [List.flatten_cons, ← List.append_assoc] at hleft
    have hhead : ∀ c ∈ u.head?, IsMark c := by
      intro c hc
      obtain ⟨v, rfl⟩ := List.head?_eq_some_iff.mp hc
      obtain ⟨d, w, rfl⟩ := List.exists_cons_of_ne_nil (show w ≠ [] by rintro rfl; cases hs)
      exact (List.cons.inj hleft).1 ▸ hw d List.mem_cons_self
    have hle := Piece.countSigns_le hu hx
    have hmarks : ∀ c ∈ w ++ x, IsMark c :=
      List.forall_mem_append.mpr ⟨hw, Piece.isMark_of_takes hu hx hhead⟩
    -- The slice has no more signs than the reader takes, so the sign of `w` is still left.
    rcases List.append_eq_append_iff.mp hleft with ⟨e, he, hflat⟩ | ⟨e, he, -⟩
    · have hcount := congrArg countSigns he
      rw [countSigns_append, countSigns_append] at hcount
      rw [he] at hmarks
      exact ih (fun c hc => hmarks c (List.mem_append_right u hc)) (by omega) hflat hread
    · have hcount := congrArg countSigns he
      rw [countSigns_append, countSigns_append] at hcount
      omega

/-- Digits of the shape leave the sign that the reader has taken. -/
theorem not_reads_of_mem_signs (h : List.Forall₂ Piece.IsSlice ps us)
    (hu : ∀ c ∈ u, c.isDigit = true) (hx : ∀ c ∈ x, IsMark c) (hs : ∃ c ∈ x, c ∈ signs)
    (hleft : u ++ us.flatten = x ++ rest) : ¬Reads ps rest := by
  obtain ⟨sign, hmem, hsign⟩ := hs
  rcases List.append_eq_append_iff.mp hleft with ⟨e, rfl, hflat⟩ | ⟨e, rfl, -⟩
  · have hpos := countSigns_pos hmem hsign
    rw [countSigns_append, countSigns_of_isDigit hu, Nat.zero_add] at hpos
    exact not_reads_of_signs h (fun c hc => hx c (List.mem_append_right u hc)) hpos hflat
  · exact absurd hsign (not_mem_signs_of_isDigit (hu sign (List.mem_append_left e hmem)))

end Signs

/-! ## A blank too many -/

section Blanks

variable {p : Piece} {ps : List Piece} {u v x y z rest : List Char} {us : List (List Char)}

/-- A text that lacks a character of another one in the same place ends before it. -/
theorem exists_append_of_mem {c : Char} (h : x ++ y = v ++ z) (hc : c ∈ v) (hx : c ∉ x) :
    ∃ e, v = x ++ e ∧ y = e ++ z ∧ c ∈ e := by
  rcases List.append_eq_append_iff.mp h with ⟨e, rfl, hy⟩ | ⟨e, rfl, -⟩
  · exact ⟨e, rfl, hy, (List.mem_append.mp hc).resolve_left hx⟩
  · exact absurd (List.mem_append_left e hc) hx

theorem not_mem_of_asciiLetter {c : Char} (h : CharClass.asciiLetter.contains c = true)
    (hx : ∀ d ∈ x, isBlank d = true) : c ∉ x := by
  intro hc
  have := hx c hc
  rw [isBlank_of_asciiLetter h] at this
  cases this

/-- Blanks and another character do not reach behind a letter. -/
theorem append_cons_ne_append {bs : List Char} {d : Char} (hb : ∀ c ∈ bs, isBlank c = true)
    (hd : ¬(CharClass.asciiLetter.contains d = true ∨ isBlank d = true))
    (hv : ∀ c ∈ v, CharClass.asciiLetter.contains c = true ∨ isBlank c = true)
    (hl : ∃ c ∈ v, CharClass.asciiLetter.contains c = true) : bs ++ d :: y ≠ v ++ z := by
  intro heq
  obtain ⟨l, hlv, hl⟩ := hl
  obtain ⟨e, rfl, he, hle⟩ := exists_append_of_mem heq hlv (not_mem_of_asciiLetter hl hb)
  obtain ⟨c, e, rfl⟩ := List.exists_cons_of_ne_nil (List.ne_nil_of_mem hle)
  obtain rfl := (List.cons.inj he).1
  exact hd (hv d (by simp))

/-- If the reader leaves letters and blanks that the shape has taken, with at least one of each, it
does not take the rest: there is a letter and a blank too many until the end. -/
theorem not_reads_of_blanks (h : List.Forall₂ Piece.IsSlice ps us)
    (hv : ∀ c ∈ v, CharClass.asciiLetter.contains c = true ∨ isBlank c = true)
    (hl : ∃ c ∈ v, CharClass.asciiLetter.contains c = true) (hb : ∃ c ∈ v, isBlank c = true)
    (hleft : rest = v ++ us.flatten) : ¬Reads ps rest := by
  induction h generalizing v rest with
  | nil =>
    intro hread
    obtain rfl := reads_nil_iff.mp hread
    obtain ⟨c, hc, -⟩ := hl
    simp [(List.append_eq_nil_iff.mp hleft.symm).1] at hc
  | @cons p u ps us hu _ ih =>
    intro hreads
    obtain ⟨x, s, rfl, hx, hread⟩ := reads_cons_iff.mp hreads
    rw [List.flatten_cons] at hleft
    obtain ⟨l, hlv, hl⟩ := hl
    obtain ⟨b, hbv, hb⟩ := hb
    cases p with
    | literal c =>
      obtain rfl : u = [c] := hu
      cases hx with
      | blank hc hbs =>
        obtain ⟨e, rfl, he, hle⟩ := exists_append_of_mem hleft hlv (not_mem_of_asciiLetter hl hbs)
        refine ih (v := e ++ [c]) ?_ ⟨l, List.mem_append_left _ hle, hl⟩ ⟨c, by simp, hc⟩
          (by simp [he]) hread
        exact List.forall_mem_append.mpr ⟨fun d hd => hv d (List.mem_append_right _ hd),
          List.forall_mem_singleton.mpr (.inr hc)⟩
      | char =>
        obtain ⟨d, v, rfl⟩ := List.exists_cons_of_ne_nil (List.ne_nil_of_mem hlv)
        obtain ⟨rfl, hs⟩ := List.cons.inj hleft
        have hmem : ∀ d, d ∈ v ++ [c] ↔ d ∈ c :: v := by simp [or_comm]
        exact ih (v := v ++ [c]) (fun d hd => hv d ((hmem d).mp hd)) ⟨l, (hmem l).mpr hlv, hl⟩
          ⟨b, (hmem b).mpr hbv, hb⟩ (by simpa using hs) hread
    | token t =>
      cases ht : t.isWord with
      | false =>
        -- The letter is in the way of what the token takes.
        obtain ⟨bs, d, y, rfl, hbs, hd⟩ := hx.exists_blanks_cons ht
        rw [List.append_assoc] at hleft
        exact append_cons_ne_append hbs (by simp [hd]) hv ⟨l, hlv, hl⟩ hleft
      | true =>
        obtain ⟨-, hletters⟩ := (hx.admits ht).letters ht
        obtain ⟨hne, hletters'⟩ := Token.IsSlice.letters hu ht
        have hbx : b ∉ x := fun hbx => by simp [isBlank_of_asciiLetter (hletters b hbx)] at hb
        obtain ⟨e, rfl, he, hbe⟩ := exists_append_of_mem hleft hbv hbx
        obtain ⟨c, hc⟩ := List.exists_mem_of_ne_nil u hne
        refine ih (v := e ++ u) ?_ ⟨c, List.mem_append_right e hc, hletters' c hc⟩
          ⟨b, List.mem_append_left u hbe, hb⟩ (by simp [he]) hread
        exact List.forall_mem_append.mpr ⟨fun d hd => hv d (List.mem_append_right _ hd),
          fun d hd => .inl (hletters' d hd)⟩

end Blanks

end FormCheck.DatePattern
