import FormCheck.Proofs.DatePattern.Drift

/-!
# Names in accepted values

A value that a pattern accepts divides into the forms of the pattern's tokens, but for full names
that are cut short after three letters: their shape has any number of letters, and the reader takes
three of them if the name does not go on.

The proof follows the reader and the shape piece by piece. Either the shape leaves digits and blanks
that the reader has taken, and the slices of the shape divide what it leaves, or what they leave
differs by the letters of names, and the texts that the reader takes divide it.

## Main definitions

* `Divisible`: the texts that divide into what the pieces admit.

## Main results

* `divisible_of_gap`, `divisible_of_letters`: one piece, from what is left to the whole.
* `divisible_of_reads`: a value that has the shape and is read divides.
* `accepts_fullName_iff`: a full name alone may be cut short, whichever it is.
* `compile_accepts_divides`: an accepted value divides, and divides into the forms themselves if no
  full name is cut short.
* `short_weekday_accepted`: a weekday cut short, where its full name is asked for.
-/

namespace FormCheck.DatePattern

open Text

/-- Whether a text divides into what the pieces admit. -/
def Divisible (ps : List Piece) (s : List Char) : Prop := ∃ us, us.flatten = s ∧ Divides ps us

theorem Divisible.cons {p : Piece} {ps : List Piece} {u s : List Char} (hp : p.Admits u s)
    (h : Divisible ps s) : Divisible (p :: ps) (u ++ s) := by
  obtain ⟨us, rfl, hus⟩ := h
  exact ⟨u :: us, rfl, .cons hp hus⟩

/-- Whether a character may be taken in front of a piece, or by a number before it. -/
def IsGap (c : Char) : Prop := c.isDigit = true ∨ isBlank c = true

theorem not_isGap_of_asciiLetter {c : Char} (h : CharClass.asciiLetter.contains c = true) :
    ¬IsGap c := by
  simp [IsGap, not_isDigit_of_asciiLetter h, isBlank_of_asciiLetter h]

theorem not_isGap_of_mem_signs {c : Char} (h : c ∈ signs) : ¬IsGap c := by
  simp [IsGap, not_isDigit_of_mem_signs h, not_isBlank_of_mem_signs h]

/-! ## One piece -/

section Step

variable {p : Piece} {t : Token} {ps : List Piece} {u v w x s rest : List Char}
  {us : List (List Char)}

/-- Nothing stands in front of a text that starts with another character. -/
theorem eq_nil_of_append_eq {P : Char → Prop} {c : Char} (hw : ∀ c ∈ w, P c) (hc : ¬P c)
    (h : c :: u = w ++ v) : w = [] := by
  cases w with
  | nil => rfl
  | cons d w => exact absurd ((List.cons.inj h).1 ▸ hw d List.mem_cons_self) hc

/-- Behind the hours the reader goes on at the next digit. -/
theorem dropWhile_gap_append {gap minutes : List Char}
    (hg : ∀ c ∈ gap, (c == ':' || isBlank c) = true) (hm : IsNumber 2 2 minutes) :
    (gap ++ (minutes ++ v)).dropWhile (fun c => c == ':' || isBlank c) = minutes ++ v := by
  obtain ⟨c, ds, rfl⟩ := List.exists_cons_of_ne_nil (hm.ne_nil (by omega))
  have hc := hm.isDigit c List.mem_cons_self
  have hcolon : c ≠ ':' := by
    rintro rfl
    cases hc
  rw [List.dropWhile_append_of_pos hg, List.cons_append, List.dropWhile_cons_of_neg]
  simp [hcolon, isBlank_of_isDigit hc]

/-- An offset has its colon between hours and minutes, so that the reader takes all that the shape
has. -/
theorem WritesOffset.eq_of_append_eq {colon : Bool} {hours gap minutes : List Char} {sign : Char}
    (hu : WritesOffset colon u) (hh : IsNumber 2 2 hours)
    (hg : ∀ c ∈ gap, c = ':' ∨ isBlank c = true) (hm : IsNumber 2 2 minutes)
    (h : u ++ v = sign :: (hours ++ (gap ++ minutes)) ++ s) : v = s := by
  obtain ⟨-, hh', hm'⟩ := hu
  simp only [List.cons_append, List.append_assoc, List.cons.injEq] at h
  have hrest := congrArg (List.dropWhile fun c => c == ':' || isBlank c)
    (List.append_inj_right h.2 (hh'.length_eq.trans hh.length_eq.symm))
  rw [dropWhile_gap_append (by cases colon <;> simp) hm',
    dropWhile_gap_append (fun c hc => by simpa using hg c hc) hm] at hrest
  exact List.append_inj_right hrest (hm'.length_eq.trans hm.length_eq.symm)

/-- What the shape leaves divides where the reader is ahead by digits and blanks, and what the
reader leaves divides where the two differ by letters. -/
structure Recovers (ps : List Piece) (us : List (List Char)) : Prop where
  gap {w s : List Char} (hw : ∀ c ∈ w, IsGap c) (hleft : us.flatten = w ++ s) (hs : Reads ps s) :
    Divisible ps us.flatten
  letters {s : List Char} (hleft : DifferBy (CharClass.asciiLetter.contains · = true) us.flatten s)
    (hs : Reads ps s) : Divisible ps s

/-- A number of the shape ends where the reader's number ends or before. -/
theorem exists_gap_of_number {width : Nat} {ds : List Char} (hu : IsNumber 1 width u)
    (hd : IsNumber 1 width ds) (hmax : ds.length = width ∨ EndsNumber s)
    (hv : ∀ c ∈ v, IsGap c) (hleft : u ++ rest = v ++ ds ++ s) :
    ∃ w, rest = w ++ s ∧ ∀ c ∈ w, IsGap c := by
  rcases List.append_eq_append_iff.mp hleft with ⟨w, hw, hrest⟩ | ⟨e, rfl, hs⟩
  · have hgap : ∀ c ∈ v ++ ds, IsGap c :=
      List.forall_mem_append.mpr ⟨hv, fun c hc => .inl (hd.isDigit c hc)⟩
    rw [hw] at hgap
    exact ⟨w, hrest, fun c hc => hgap c (List.mem_append_right u hc)⟩
  · cases e with
    | nil => exact ⟨[], hs.symm, by simp⟩
    | cons c e =>
      -- The reader would have taken the next digit.
      have hc : c.isDigit = true := hu.isDigit c (by simp)
      rcases hmax with hmax | hmax
      · have := hu.le_hi
        simp only [List.length_append, List.length_cons] at this
        omega
      · simp [hmax c (by simp [hs])] at hc

/-- One piece, where the reader is ahead by digits and blanks. The literals may be among these, a
number may take some of them, and an offset or a word starts with another character. -/
theorem divisible_of_gap (hu : p.IsSlice u) (h : List.Forall₂ Piece.IsSlice ps us)
    (hrec : Recovers ps us) (hw : ∀ c ∈ w, IsGap c) (hleft : u ++ us.flatten = w ++ rest)
    (hread : Reads (p :: ps) rest) : Divisible (p :: ps) (u ++ us.flatten) := by
  obtain ⟨x, s, rfl, hx, hs⟩ := reads_cons_iff.mp hread
  have hmarks := Piece.isMark_of_takes hu hx
  cases hx with
  | @blank c _ _ hc hb hrest =>
    obtain rfl : u = [c] := hu
    have hgap : ∀ d ∈ w ++ x, IsGap d :=
      List.forall_mem_append.mpr ⟨hw, fun d hd => .inr (hb d hd)⟩
    rw [← List.append_assoc] at hleft
    generalize w ++ x = w at hgap hleft
    cases w with
    | nil =>
      -- The reader takes all blanks, the literal too.
      have := hrest c (by rw [← List.nil_append s, ← hleft]; rfl)
      rw [hc] at this
      cases this
    | cons d w =>
      have hflat := (List.cons.inj hleft).2
      exact .cons rfl (hrec.gap (fun e he => hgap e (List.mem_cons_of_mem d he)) hflat hs)
  | @char c =>
    obtain rfl : u = [c] := hu
    cases w with
    | nil => exact .cons rfl (hrec.gap hw (List.cons.inj hleft).2 hs)
    | cons d w =>
      obtain ⟨rfl, hflat⟩ := List.cons.inj hleft
      rw [List.forall_mem_cons] at hw
      have hgap : ∀ e ∈ w ++ [c], IsGap e :=
        List.forall_mem_append.mpr ⟨hw.2, List.forall_mem_singleton.mpr hw.1⟩
      exact .cons rfl (hrec.gap hgap (by simpa using hflat) hs)
  | number ht hb hd hmax =>
    have hu := Token.IsSlice.documented_of_width? hu ht
    have hgap := List.forall_mem_append.mpr ⟨hw, fun c hc => .inr (hb c hc)⟩
    rw [← List.append_assoc, ← List.append_assoc] at hleft
    obtain ⟨v, hflat, hv⟩ := exists_gap_of_number (hu.isNumber ht) hd hmax hgap hleft
    exact .cons (.inl hu) (hrec.gap hv hflat hs)
  | @signedYear _ _ _ sign _ hsign =>
    have hu : IsNumber 4 4 u := Token.IsSlice.documented_of_width? hu rfl
    have hx : ∀ c ∈ _, IsMark c := hmarks fun c hc => .inl (hu.isDigit c (List.mem_of_mem_head? hc))
    rw [← List.append_assoc] at hleft
    refine absurd hs (not_reads_of_mem_signs h hu.isDigit ?_ ⟨sign, by simp, hsign⟩ hleft)
    exact List.forall_mem_append.mpr ⟨fun c hc => (hw c hc).imp_right .inl, hx⟩
  | @offset _ bs _ _ _ _ _ hb hsign hh hg hm =>
    have hu := isSlice_offset hu
    obtain ⟨c, v, rfl, hc⟩ := hu.exists_cons
    obtain rfl : w = [] := eq_nil_of_append_eq hw (not_isGap_of_mem_signs hc) hleft
    rw [List.nil_append, List.append_assoc] at hleft
    obtain rfl : bs = [] :=
      eq_nil_of_append_eq hb (Bool.not_eq_true _ ▸ not_isBlank_of_mem_signs hc) hleft
    have hflat := hu.eq_of_append_eq hh hg hm hleft
    exact .cons (.inl hu) (hrec.gap hw hflat hs)
  | word ht hadmits =>
    obtain ⟨hne, hletters⟩ := Token.IsSlice.letters hu ht
    obtain ⟨c, u, rfl⟩ := List.exists_cons_of_ne_nil hne
    obtain rfl : w = [] :=
      eq_nil_of_append_eq hw (not_isGap_of_asciiLetter (hletters c List.mem_cons_self)) hleft
    rw [List.nil_append] at hleft
    have hdiffer := DifferBy.of_append_eq hletters (hadmits.letters ht).2 hleft
    rw [hleft]
    exact .cons hadmits (hrec.letters hdiffer hs)

theorem not_asciiLetter_of_isBlank {c : Char} (h : isBlank c = true) :
    ¬CharClass.asciiLetter.contains c = true := by
  intro hc
  simp [isBlank_of_asciiLetter hc] at h

/-- Blanks and another character that is no letter are not what differs by letters. -/
theorem eq_of_differBy_letters {bs : List Char} {c d : Char}
    (h : DifferBy (CharClass.asciiLetter.contains · = true) (c :: u) (bs ++ d :: v))
    (hc : CharClass.asciiLetter.contains c = false) (hb : ∀ b ∈ bs, isBlank b = true)
    (hd : CharClass.asciiLetter.contains d = false) : c :: u = bs ++ d :: v := by
  cases bs with
  | nil => exact h.eq_of_cons (by simp [hc]) (by simp [hd])
  | cons b bs =>
    exact h.eq_of_cons (by simp [hc]) (not_asciiLetter_of_isBlank (hb b List.mem_cons_self))

/-- A slice of a token other than a word does not start with a letter. -/
theorem Token.IsSlice.exists_cons_of_takes (hu : t.IsSlice u) (hx : (Piece.token t).Takes x s)
    (ht : t.isWord = false) :
    ∃ c v, u = c :: v ∧ CharClass.asciiLetter.contains c = false := by
  have hnumber : ∀ {width}, IsNumber 1 width u →
      ∃ c v, u = c :: v ∧ CharClass.asciiLetter.contains c = false := by
    intro width hu
    obtain ⟨c, v, rfl⟩ := List.exists_cons_of_ne_nil (hu.ne_nil (Nat.le_refl 1))
    exact ⟨c, v, rfl, not_asciiLetter_of_isDigit (hu.isDigit c List.mem_cons_self)⟩
  cases hx with
  | number hwidth => exact hnumber (hu.isNumber hwidth)
  | signedYear => exact hnumber (hu.isNumber (t := .year) rfl)
  | offset =>
    obtain ⟨c, v, rfl, hc⟩ := (isSlice_offset hu).exists_cons
    exact ⟨c, v, rfl, not_asciiLetter_of_mem_signs hc⟩
  | word hword => exact absurd (hword.symm.trans ht) (by decide)

/-- One piece, where the two differ by letters. Only literal letters and words can follow. -/
theorem divisible_of_letters (hu : p.IsSlice u) (h : List.Forall₂ Piece.IsSlice ps us)
    (hrec : Recovers ps us)
    (hleft : DifferBy (CharClass.asciiLetter.contains · = true) (u ++ us.flatten) rest)
    (hread : Reads (p :: ps) rest) : Divisible (p :: ps) rest := by
  -- If nothing differs, there is no gap either.
  have hsame : u ++ us.flatten = rest → Divisible (p :: ps) rest := by
    rintro rfl
    exact divisible_of_gap (w := []) hu h hrec (by simp) rfl hread
  obtain ⟨x, s, rfl, hx, hs⟩ := reads_cons_iff.mp hread
  cases p with
  | literal c =>
    obtain rfl : u = [c] := hu
    cases hx with
    | char => exact .cons rfl (hrec.letters hleft.of_cons hs)
    | blank hc hb =>
      obtain ⟨w, hw, hleft⟩ := hleft
      cases w with
      | nil => exact hsame (hleft.elim id Eq.symm)
      | cons l w =>
        have hl := hw l List.mem_cons_self
        rcases hleft with hleft | hleft
        · obtain rfl := (List.cons.inj hleft).1
          exact absurd hl (not_asciiLetter_of_isBlank hc)
        · -- The letters keep the reader from the blank of the literal.
          obtain rfl : x = [] :=
            eq_nil_of_append_eq hb (by simp [isBlank_of_asciiLetter hl]) hleft.symm
          have hv : ∀ d ∈ l :: w ++ [c],
              CharClass.asciiLetter.contains d = true ∨ isBlank d = true :=
            List.forall_mem_append.mpr
              ⟨fun d hd => .inl (hw d hd), List.forall_mem_singleton.mpr (.inr hc)⟩
          exact absurd hs (not_reads_of_blanks h hv ⟨l, by simp, hl⟩ ⟨c, by simp, hc⟩
            (by simpa using hleft))
  | token t =>
    cases ht : t.isWord with
    | true =>
      have hadmits := hx.admits ht
      have hletters := (Token.IsSlice.letters hu ht).2
      exact .cons hadmits (hrec.letters (hleft.of_append hletters (hadmits.letters ht).2) hs)
    | false =>
      obtain ⟨c, v, rfl, hc⟩ := Token.IsSlice.exists_cons_of_takes hu hx ht
      obtain ⟨bs, d, y, rfl, hb, -, hd⟩ := hx.exists_blanks_cons ht
      rw [List.append_assoc] at hleft hsame ⊢
      exact hsame (eq_of_differBy_letters hleft hc hb hd)

end Step

/-! ## Accepted values -/

/-- By induction on the pieces, for both differences at once: behind a word the one may turn into
the other. -/
theorem recovers_of_isSlice {ps : List Piece} {us : List (List Char)}
    (h : List.Forall₂ Piece.IsSlice ps us) : Recovers ps us := by
  induction h with
  | nil =>
    constructor
    · intro w s hw hleft hs
      exact ⟨[], rfl, .nil⟩
    · intro s hleft hs
      obtain rfl := reads_nil_iff.mp hs
      exact ⟨[], rfl, .nil⟩
  | @cons p u ps us hu h ih =>
    constructor
    · intro w s hw hleft hs
      exact divisible_of_gap hu h ih hw hleft hs
    · intro s hleft hs
      exact divisible_of_letters hu h ih hleft hs

/-- A value that has the shape of a pattern and is read divides into what its pieces admit. -/
theorem divisible_of_reads {ps : List Piece} {us : List (List Char)}
    (h : List.Forall₂ Piece.IsSlice ps us) (hread : Reads ps us.flatten) :
    Divisible ps us.flatten :=
  (recovers_of_isSlice h).gap (w := []) (by simp) rfl hread

/-! ## A full name alone -/

/-- A name of the list is taken, if the text starts with the first three letters of one. -/
theorem exists_takeName {names : List String} {s : List Char} {name : String} (full : Bool)
    (hname : name ∈ names) (hs : SameLetters (shortName name) (s.take 3)) :
    ∃ p, takeName full names s = some p := by
  have hword : ∃ r, dropWord? (name.toList.take 3) s = some r := by
    refine ⟨s.drop 3, ?_⟩
    have := dropWord?_append hs.length_eq (s.drop 3)
    rwa [List.take_append_drop, if_pos hs] at this
  induction names with
  | nil => cases hname
  | cons a names ih =>
    rw [takeName]
    cases ha : dropWord? (a.toList.take 3) s with
    | some r => cases full <;> exact ⟨_, rfl⟩
    | none =>
      rcases List.mem_cons.mp hname with rfl | hname
      · simp [ha] at hword
      · obtain ⟨p, hp⟩ := ih hname
        exact ⟨(p.1 + 1, p.2), by rw [hp]; rfl⟩

/-- A name of three letters that ends a text is the full name or is cut short. -/
theorem IsName.full_or_isCutShort {names : List String} {u : List Char}
    (h : IsName false names u) : IsName true names u ∨ IsCutShort names u [] := by
  obtain ⟨name, hname, hu⟩ := h
  by_cases hdrop : name.toList.drop 3 = []
  · refine .inl ⟨name, hname, ?_⟩
    rwa [if_pos rfl, ← List.take_append_drop 3 name.toList, hdrop, List.append_nil]
  · refine .inr ⟨name, hname, hu, fun v hv hsame => ?_⟩
    obtain rfl := List.prefix_nil.mp hv
    exact hdrop (List.length_eq_zero_iff.mp hsame.length_eq)

/-- A name is taken to its end, in full or of three letters. -/
theorem exists_takeName_eq_some_nil {names : List String} {u : List Char} (hn : Abbreviable names)
    (h : IsName true names u ∨ IsName false names u) :
    ∃ n, takeName true names u = some (n, []) := by
  have h : IsName true names u ∨ IsCutShort names u [] :=
    h.elim .inl IsName.full_or_isCutShort
  obtain ⟨name, hname, hs, -⟩ := exists_name_take hn h
  rw [List.append_nil] at hs
  obtain ⟨⟨n, rest⟩, htake⟩ := exists_takeName true hname hs
  obtain ⟨v, rfl, hv⟩ := exists_of_takeName htake
  have heq := eq_of_isName_or_isCutShort hn h (hv.imp_right And.right) (List.append_nil _)
  obtain rfl : rest = [] := List.append_cancel_left (heq.trans (List.append_nil v).symm)
  exact ⟨n, htake⟩

/-- One token does not determine a day or a time. -/
theorem isConsistent_singleton (t : Token) (q : Reading) : isConsistent ⟨[.token t]⟩ q = true := by
  cases t <;> rfl

theorem admits_of_accepts {t : Token} {value : String} (ht : t ≠ .timestamp)
    (h : accepts ⟨[.token t]⟩ value = true) : t.Admits value.toList [] := by
  obtain ⟨us, hflat, hslices, q, hq, -⟩ := accepts_iff_exists_slices.mp h
  have ht : Piece.token .timestamp ∉ [Piece.token t] := by simpa using ht.symm
  obtain ⟨us', hflat', hdivides⟩ := divisible_of_reads hslices (reads_of_ofPieces hq ht)
  obtain - | ⟨hadmits, ⟨⟩⟩ := hdivides
  rwa [← hflat, ← hflat', List.flatten_singleton]

theorem accepts_of_isSlice {t : Token} {value : String} {r : Reading}
    (hu : t.IsSlice value.toList) (htake : t.take value.toList = some (r, [])) :
    accepts ⟨[.token t]⟩ value = true := by
  obtain ⟨q, hq⟩ := Reading.exists_merge (Reading.empty_le r) r.le_refl
  refine accepts_iff_exists_slices.mpr
    ⟨[value.toList], List.flatten_singleton, .cons hu .nil, q, ?_, isConsistent_singleton t q⟩
  simp [Reading.ofPieces, Piece.read, t.read_eq_merge, htake, hq]

theorem isSlice_of_isName {t : Token} {names : List String} {u : List Char}
    (hshape : t.shape = Token.nameShape true) (hn : Abbreviable names) (hl : Lettered names)
    (h : IsName true names u ∨ IsName false names u) : t.IsSlice u := by
  have hletters : u ≠ [] ∧ ∀ c ∈ u, CharClass.asciiLetter.contains c = true :=
    h.elim (fun h => h.letters hn hl) (fun h => h.letters hn hl)
  refine ⟨hshape ▸ Regex.matches_plus_char_iff.mpr hletters, fun c hc => ?_⟩
  have := asciiLetter_contains_iff.mp (hletters.2 c hc)
  exact isForeignDigit_of_lt (by omega)

/-- A pattern that is one full name accepts the names in full and of three letters. -/
theorem accepts_fullName_iff {t : Token} (ht : t.fullNames ≠ []) {value : String} :
    accepts ⟨[.token t]⟩ value = true ↔
      IsName true t.fullNames value.toList ∨ IsName false t.fullNames value.toList := by
  have hfull : t = .weekday true ∨ t = .monthName true := by
    cases t with
    | weekday full | monthName full => cases full <;> simp [Token.fullNames] at ht ⊢
    | _ => exact absurd rfl ht
  constructor
  · intro h
    have hadmits := admits_of_accepts (by rintro rfl; exact ht rfl) h
    rcases hfull with rfl | rfl <;> exact hadmits.imp_right IsCutShort.isName
  · intro h
    rcases hfull with rfl | rfl
    · obtain ⟨n, hn⟩ := exists_takeName_eq_some_nil abbreviable_weekdayNames h
      exact accepts_of_isSlice
        (isSlice_of_isName rfl abbreviable_weekdayNames lettered_weekdayNames h)
        (by rw [Token.take, hn]; rfl)
    · obtain ⟨n, hn⟩ := exists_takeName_eq_some_nil abbreviable_monthNames h
      exact accepts_of_isSlice
        (isSlice_of_isName rfl abbreviable_monthNames lettered_monthNames h)
        (by rw [Token.take, hn]; rfl)

/-- A value that a pattern without timestamps accepts divides into the forms of the tokens, with
full names that may be cut short. It divides into the forms alone, so that every full name is
written out, if and only if this division does; and it does if the pattern has no full names. -/
theorem compile_accepts_divides {pattern : String} {ps : List Piece}
    (hw : Written pattern.toList ps) (ht : .token .timestamp ∉ ps) :
    ∃ p, compile pattern = .ok p ∧ ∀ value : String, p.accepts value = true →
      ∃ us, us.flatten = value.toList ∧ Divides ps us ∧
        ((∃ vs, vs.flatten = value.toList ∧ List.Forall₂ Piece.Documented ps vs) ↔
          List.Forall₂ Piece.Documented ps us) ∧
        ((∀ t, .token t ∈ ps → t.fullNames = []) → List.Forall₂ Piece.Documented ps us) := by
  refine ⟨⟨ps⟩, compile_of_written hw, ?_⟩
  intro value haccepts
  obtain ⟨us, hflat, hslices, q, hq, -⟩ := accepts_iff_exists_slices.mp haccepts
  obtain ⟨us', hflat', hdivides⟩ := divisible_of_reads hslices (reads_of_ofPieces hq ht)
  refine ⟨us', hflat'.trans hflat, hdivides, ⟨?_, ?_⟩, hdivides.documented_of_fullNames⟩
  · rintro ⟨vs, hvs, hdoc⟩
    have hsame : us'.flatten = vs.flatten := hflat'.trans (hflat.trans hvs.symm)
    exact hdivides.documented ht hdoc (hsame ▸ DifferBy.refl _ _)
  · exact fun hdoc => ⟨us', hflat'.trans hflat, hdoc⟩

/-- A weekday in full and a month of three letters. -/
theorem compile_accepts_divides_monday_sep :
    ∃ p, compile "l M" = .ok p ∧ p.accepts "Monday Sep" = true ∧
      ∃ us, us.flatten = "Monday Sep".toList ∧
        Divides [.token (.weekday true), .literal ' ', .token (.monthName false)] us := by
  have hw : Written "l M".toList
      [.token (.weekday true), .literal ' ', .token (.monthName false)] :=
    .token (by decide) (.plain rfl (by decide) (.token (by decide) .nil))
  obtain ⟨p, hp, h⟩ := compile_accepts_divides hw (by decide)
  have haccepts : p.accepts "Monday Sep" = true := by
    cases hp
    decide +kernel
  obtain ⟨us, hflat, hdivides, -⟩ := h "Monday Sep" haccepts
  exact ⟨p, hp, haccepts, us, hflat, hdivides⟩

theorem six_le_length_of_mem_weekdayNames {name : String} (h : name ∈ Calendar.weekdayNames) :
    6 ≤ name.toList.length := by
  simp only [Calendar.weekdayNames, List.mem_cons, List.not_mem_nil, or_false] at h
  rcases h with rfl | rfl | rfl | rfl | rfl | rfl | rfl <;> decide

/-- Where a full weekday is asked for, its first three letters are accepted as well. -/
theorem short_weekday_accepted :
    ∃ p, compile "l" = .ok p ∧ p.accepts "Mon" = true ∧
      ¬∃ us, us.flatten = "Mon".toList ∧
        List.Forall₂ Piece.Documented [.token (.weekday true)] us := by
  refine ⟨_, rfl, by decide +kernel, ?_⟩
  rintro ⟨us, hflat, hdoc⟩
  obtain ⟨u, _, ⟨name, hname, hu⟩, hnil, rfl⟩ := List.forall₂_cons_left_iff.mp hdoc
  obtain rfl := List.forall₂_nil_left_iff.mp hnil
  have hsix := six_le_length_of_mem_weekdayNames hname
  have hlen : name.toList.length = u.length := hu.length_eq
  rw [List.flatten_singleton] at hflat
  subst hflat
  exact absurd (hlen ▸ hsix) (by decide)

end FormCheck.DatePattern
