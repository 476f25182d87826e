import FormCheck.Proofs.DatePattern.Division

/-!
# What the reader takes from a value

A word begins where the reader stands, a number or an offset behind any number of blanks. A number
ends at its width or before a character that is no digit, and only a year may have a sign. A full
name may end after three letters if it does not go on behind them.

## Main definitions

* `Piece.Takes`: the texts that a piece takes in front of what it leaves.
* `Reads`: the values that the pieces take, one after the other.

## Main results

* `Piece.exists_takes_of_read`: what the reader takes for one piece.
* `reads_of_ofPieces`: what it takes for a sequence of pieces.
-/

namespace FormCheck

namespace Text

theorem exists_blanks_append_dropBlank (s : List Char) :
    ∃ bs, (∀ c ∈ bs, isBlank c = true) ∧ s = bs ++ dropBlank s :=
  ⟨s.takeWhile isBlank, fun _ => List.mem_takeWhile_imp, List.takeWhile_append_dropWhile.symm⟩

theorem not_of_mem_head?_dropWhile {f : Char → Bool} {s : List Char} {c : Char}
    (hc : c ∈ (s.dropWhile f).head?) : f c = false := by
  have h := List.head?_dropWhile_not f s
  rw [Option.mem_def] at hc
  rwa [hc] at h

end Text

namespace DatePattern

open Text

/-- The signs of offsets. A year may have the first two. -/
def signs : List Char := ['+', '-', '\u2212']

theorem mem_signs_iff {c : Char} : c ∈ signs ↔ c = '+' ∨ c = '-' ∨ c = '\u2212' := by
  simp [signs]

theorem not_isDigit_of_mem_signs {c : Char} (h : c ∈ signs) : c.isDigit = false := by
  rcases mem_signs_iff.mp h with rfl | rfl | rfl <;> rfl

theorem not_isBlank_of_mem_signs {c : Char} (h : c ∈ signs) : isBlank c = false := by
  rcases mem_signs_iff.mp h with rfl | rfl | rfl <;> rfl

theorem not_asciiLetter_of_mem_signs {c : Char} (h : c ∈ signs) :
    CharClass.asciiLetter.contains c = false := by
  rcases mem_signs_iff.mp h with rfl | rfl | rfl <;> rfl

theorem not_asciiLetter_of_isDigit {c : Char} (h : c.isDigit = true) :
    CharClass.asciiLetter.contains c = false := by
  by_contra hc
  simp [not_isDigit_of_asciiLetter (Bool.of_not_eq_false hc)] at h

theorem not_mem_signs_of_isDigit {c : Char} (h : c.isDigit = true) : c ∉ signs := by
  intro hs
  simp [not_isDigit_of_mem_signs hs] at h

/-- Whether a piece takes a text in front of `rest`. -/
inductive Piece.Takes : Piece → List Char → List Char → Prop where
  | blank {c : Char} {bs rest : List Char} (hc : isBlank c = true)
      (hb : ∀ d ∈ bs, isBlank d = true) (hrest : ∀ d ∈ rest.head?, isBlank d = false) :
      Takes (literal c) bs rest
  | char {c : Char} {rest : List Char} (hc : isBlank c = false) : Takes (literal c) [c] rest
  | number {t : Token} {width : Nat} {bs ds rest : List Char} (ht : t.width? = some width)
      (hb : ∀ c ∈ bs, isBlank c = true) (hd : IsNumber 1 width ds)
      (hmax : ds.length = width ∨ EndsNumber rest) : Takes (token t) (bs ++ ds) rest
  | signedYear {bs ds rest : List Char} {sign : Char} (hb : ∀ c ∈ bs, isBlank c = true)
      (hs : sign ∈ signs) (hd : ∀ c ∈ ds, c.isDigit = true) :
      Takes (token .year) (bs ++ sign :: ds) rest
  | offset {colon : Bool} {bs hours gap minutes rest : List Char} {sign : Char}
      (hb : ∀ c ∈ bs, isBlank c = true) (hs : sign ∈ signs) (hh : IsNumber 2 2 hours)
      (hg : ∀ c ∈ gap, c = ':' ∨ isBlank c = true) (hm : IsNumber 2 2 minutes) :
      Takes (token (.offset colon)) (bs ++ sign :: (hours ++ (gap ++ minutes))) rest
  | word {t : Token} {u rest : List Char} (ht : t.isWord = true) (h : t.Admits u rest) :
      Takes (token t) u rest

/-- Whether the pieces take a value, one after the other. -/
inductive Reads : List Piece → List Char → Prop where
  | nil : Reads [] []
  | cons {p : Piece} {ps : List Piece} {x s : List Char} (hp : p.Takes x s) (hs : Reads ps s) :
      Reads (p :: ps) (x ++ s)

theorem reads_nil_iff {s : List Char} : Reads [] s ↔ s = [] := by
  constructor
  · rintro ⟨⟩
    rfl
  · rintro rfl
    exact .nil

theorem reads_cons_iff {p : Piece} {ps : List Piece} {r : List Char} :
    Reads (p :: ps) r ↔ ∃ x s, r = x ++ s ∧ p.Takes x s ∧ Reads ps s := by
  constructor
  · rintro ⟨⟩
    exact ⟨_, _, rfl, ‹_›, ‹_›⟩
  · rintro ⟨x, s, rfl, hp, hs⟩
    exact .cons hp hs

section Token

variable {t : Token} {x rest : List Char}

/-- What a word takes is one that it admits. -/
theorem Piece.Takes.admits (h : (Piece.token t).Takes x rest) (hw : t.isWord = true) :
    t.Admits x rest := by
  cases h with
  | word _ hadmits => exact hadmits
  | number ht =>
    cases t with
    | meridiem | weekday | monthName => cases ht
    | _ => cases hw
  | signedYear | offset => cases hw

/-- A token other than a word takes blanks and then a digit or a sign. -/
theorem Piece.Takes.exists_blanks_cons (h : (Piece.token t).Takes x rest)
    (hw : t.isWord = false) :
    ∃ bs d y, x = bs ++ d :: y ∧ (∀ c ∈ bs, isBlank c = true) ∧ isBlank d = false ∧
      CharClass.asciiLetter.contains d = false := by
  cases h with
  | number _ hb hd =>
    obtain ⟨d, y, rfl⟩ := List.exists_cons_of_ne_nil (hd.ne_nil (Nat.le_refl 1))
    have hd := hd.isDigit d List.mem_cons_self
    exact ⟨_, d, y, rfl, hb, isBlank_of_isDigit hd, not_asciiLetter_of_isDigit hd⟩
  | signedYear hb hs | offset hb hs =>
    exact ⟨_, _, _, rfl, hb, not_isBlank_of_mem_signs hs, not_asciiLetter_of_mem_signs hs⟩
  | word ht => exact absurd (ht.symm.trans hw) (by decide)

end Token

/-! ## Numbers -/

section Number

variable {t : Token} {width n lo hi : Nat} {s rest : List Char}

/-- A number that is taken is as long as it can be. -/
theorem exists_of_takeNumber (h : takeNumber width s = some (n, rest)) :
    ∃ ds, s = ds ++ rest ∧ IsNumber 1 width ds ∧ ofDigits ds = n ∧
      (ds.length = width ∨ EndsNumber rest) := by
  simp only [takeNumber, Option.ite_none_left_eq_some, Option.some.injEq, Prod.mk.injEq,
    Bool.or_eq_true, List.isEmpty_iff, not_or, ← List.take_takeWhile] at h
  obtain ⟨⟨hne, -⟩, hn, rfl⟩ := h
  have hs : s = s.takeWhile Char.isDigit ++ s.dropWhile Char.isDigit :=
    List.takeWhile_append_dropWhile.symm
  have hdigit : ∀ c ∈ s.takeWhile Char.isDigit, c.isDigit = true := fun _ =>
    List.mem_takeWhile_imp
  have hends : EndsNumber (s.dropWhile Char.isDigit) := fun _ => not_of_mem_head?_dropWhile
  generalize s.takeWhile Char.isDigit = ds at hne hn hs hdigit ⊢
  generalize s.dropWhile Char.isDigit = rest at hs hends
  subst hs
  have hprefix : ds.take width <+: ds ++ rest := (List.take_prefix width ds).trans ⟨rest, rfl⟩
  refine ⟨ds.take width, (List.prefix_iff_eq_append.mp hprefix).symm,
    ⟨List.length_pos_iff.mpr hne, List.length_take_le width ds, ?_⟩, hn, ?_⟩
  · exact fun c hc => hdigit c (List.mem_of_mem_take hc)
  · rcases Nat.le_total width ds.length with hlen | hlen
    · exact .inl (List.length_take_of_le hlen)
    · rw [List.take_of_length_le hlen, List.drop_left]
      exact .inr hends

theorem exists_takes_of_takeNumberIn (ht : t.width? = some width)
    (h : takeNumberIn lo hi width s = some (n, rest)) :
    ∃ x, s = x ++ rest ∧ (Piece.token t).Takes x rest := by
  obtain ⟨⟨m, r⟩, hm, h⟩ := Option.bind_eq_some_iff.mp h
  rw [Option.ite_none_right_eq_some] at h
  cases h.2
  obtain ⟨bs, hb, hs⟩ := exists_blanks_append_dropBlank s
  obtain ⟨ds, hds, hd, -, hmax⟩ := exists_of_takeNumber hm
  refine ⟨bs ++ ds, ?_, .number ht hb hd hmax⟩
  rw [List.append_assoc, ← hds]
  exact hs

theorem exists_of_takeFixedNumber (h : takeFixedNumber width s = some (n, rest)) :
    ∃ ds, s = ds ++ rest ∧ IsNumber width width ds ∧ ofDigits ds = n := by
  simp only [takeFixedNumber, Option.ite_none_right_eq_some, Option.some.injEq,
    Prod.mk.injEq, List.all_eq_true] at h
  obtain ⟨⟨hlen, hd⟩, hn, rfl⟩ := h
  exact ⟨s.take width, (List.take_append_drop width s).symm, ⟨hlen.ge, hlen.le, hd⟩, hn⟩

/-- A number of exactly its width is taken without blanks in front. -/
theorem exists_takes_of_takeFixedNumber (ht : t.width? = some width) (hwidth : 1 ≤ width)
    (h : takeFixedNumber width s = some (n, rest)) :
    ∃ x, s = x ++ rest ∧ (Piece.token t).Takes x rest := by
  obtain ⟨ds, rfl, hd, -⟩ := exists_of_takeFixedNumber h
  have hnumber : IsNumber 1 width ds := ⟨hwidth.trans hd.lo_le, hd.le_hi, hd.isDigit⟩
  have hlen : ds.length = width := Nat.le_antisymm hd.le_hi hd.lo_le
  exact ⟨[] ++ ds, by simp, .number ht (by simp) hnumber (.inl hlen)⟩

/-- A year is four digits at most, or any number of them behind a sign. -/
theorem exists_of_takeYear {y : Int} (h : takeYear s = some (y, rest)) :
    ∃ bs u ds, s = bs ++ u ++ ds ++ rest ∧ (∀ c ∈ bs, isBlank c = true) ∧
      (u = [] ∧ IsNumber 1 4 ds ∧ (ds.length = 4 ∨ EndsNumber rest) ∧ y = ofDigits ds ∨
        u = ['+'] ∧ (∀ c ∈ ds, c.isDigit = true) ∧ y = ofDigits ds ∨
        u = ['-'] ∧ (∀ c ∈ ds, c.isDigit = true) ∧ y = -(ofDigits ds : Int)) := by
  obtain ⟨bs, hb, hs⟩ := exists_blanks_append_dropBlank s
  -- A number is taken behind a sign, if there is one, and then checked.
  have hnumber : ∀ {width : Nat} {t : List Char} (f : Nat → Int),
      (((takeNumber width t).map fun p => (f p.1, p.2)).bind fun p =>
        if -yearBound ≤ p.1 ∧ p.1 < yearBound then some (p.1, p.2) else none) = some (y, rest) →
      ∃ ds, t = ds ++ rest ∧ IsNumber 1 width ds ∧ (ds.length = width ∨ EndsNumber rest) ∧
        y = f (ofDigits ds) := by
    intro width t f h
    obtain ⟨_, hz, h⟩ := Option.bind_eq_some_iff.mp h
    obtain ⟨⟨n, u⟩, hn, rfl⟩ := Option.map_eq_some_iff.mp hz
    rw [Option.ite_none_right_eq_some] at h
    cases h.2
    obtain ⟨ds, ht, hd, rfl, hmax⟩ := exists_of_takeNumber hn
    exact ⟨ds, ht, hd, hmax, rfl⟩
  unfold takeYear at h
  dsimp only at h
  split at h
  · next t hdrop =>
    obtain ⟨ds, rfl, hd, -, hy⟩ := hnumber (fun n => -(n : Int)) h
    exact ⟨bs, ['-'], ds, by simpa [hdrop] using hs, hb, .inr (.inr ⟨rfl, hd.isDigit, hy⟩)⟩
  · next t hdrop =>
    obtain ⟨ds, rfl, hd, -, hy⟩ := hnumber (fun n => (n : Int)) h
    exact ⟨bs, ['+'], ds, by simpa [hdrop] using hs, hb, .inr (.inl ⟨rfl, hd.isDigit, hy⟩)⟩
  · obtain ⟨ds, hds, hd, hmax, hy⟩ := hnumber (fun n => (n : Int)) h
    exact ⟨bs, [], ds, by simpa [hds] using hs, hb, .inl ⟨rfl, hd, hmax, hy⟩⟩

theorem exists_takes_of_takeYear {y : Int} (h : takeYear s = some (y, rest)) :
    ∃ x, s = x ++ rest ∧ (Piece.token .year).Takes x rest := by
  obtain ⟨bs, u, ds, rfl, hb, hyear⟩ := exists_of_takeYear h
  refine ⟨bs ++ u ++ ds, rfl, ?_⟩
  rcases hyear with ⟨rfl, hd, hmax, -⟩ | ⟨rfl, hd, -⟩ | ⟨rfl, hd, -⟩
  · rw [List.append_nil]
    exact .number rfl hb hd hmax
  · rw [List.append_assoc]
    exact .signedYear hb (by simp [signs]) hd
  · rw [List.append_assoc]
    exact .signedYear hb (by simp [signs]) hd

end Number

/-! ## Offsets -/

theorem exists_of_takeSign {i : Int} {s rest : List Char} (h : takeSign s = some (i, rest)) :
    ∃ sign ∈ signs, s = sign :: rest := by
  unfold takeSign at h
  split at h
  all_goals cases h
  · exact ⟨'+', by simp [signs], rfl⟩
  · exact ⟨'-', by simp [signs], rfl⟩
  · exact ⟨'\u2212', by simp [signs], rfl⟩

theorem exists_takes_of_takeOffset {colon : Bool} {i : Int} {s rest : List Char}
    (h : takeOffset s = some (i, rest)) :
    ∃ x, s = x ++ rest ∧ (Piece.token (.offset colon)).Takes x rest := by
  obtain ⟨⟨sign, t⟩, hsign, h⟩ := Option.bind_eq_some_iff.mp h
  obtain ⟨⟨hours, u⟩, hhours, h⟩ := Option.bind_eq_some_iff.mp h
  obtain ⟨⟨minutes, v⟩, hminutes, h⟩ := Option.bind_eq_some_iff.mp h
  rw [Option.ite_none_right_eq_some] at h
  cases h.2
  obtain ⟨bs, hb, hs⟩ := exists_blanks_append_dropBlank s
  obtain ⟨c, hc, ht⟩ := exists_of_takeSign hsign
  obtain ⟨hh, rfl, hhh, -⟩ := exists_of_takeFixedNumber hhours
  obtain ⟨mm, hu, hmm, -⟩ := exists_of_takeFixedNumber hminutes
  have hgap : ∀ d ∈ u.takeWhile fun c => c == ':' || isBlank c, d = ':' ∨ isBlank d = true := by
    intro d hd
    simpa using List.mem_takeWhile_imp hd
  refine ⟨_, ?_, .offset hb hc hhh hgap hmm⟩
  have hsplit : u = (u.takeWhile fun c => c == ':' || isBlank c) ++ (mm ++ rest) := by
    rw [← hu, List.takeWhile_append_dropWhile]
  rw [ht] at hs
  rw [hs]
  conv_lhs => rw [hsplit]
  simp

/-! ## Words -/

theorem dropWord?_eq_some {w s rest : List Char} (h : dropWord? w s = some rest) :
    ∃ u, s = u ++ rest ∧ SameLetters w u := by
  induction w generalizing s with
  | nil =>
    cases h
    exact ⟨[], rfl, rfl⟩
  | cons c w ih =>
    cases s with
    | nil => cases h
    | cons d s =>
      simp only [dropWord?, Option.ite_none_right_eq_some] at h
      obtain ⟨u, rfl, hu⟩ := ih h.2
      exact ⟨d :: u, rfl, sameLetters_cons.mpr ⟨h.1, hu⟩⟩

theorem not_sameLetters_of_dropWord? {w s : List Char} (h : dropWord? w s = none) :
    ∀ v, v <+: s → ¬SameLetters w v := by
  rintro v ⟨r, rfl⟩ hv
  rw [dropWord?_append hv.length_eq, if_pos hv] at h
  cases h

/-- A name that is taken in full ends with its last letter, or after three letters if it does not go
on behind them. -/
theorem exists_of_takeName {full : Bool} {names : List String} {n : Nat} {s rest : List Char}
    (h : takeName full names s = some (n, rest)) :
    ∃ u, s = u ++ rest ∧ (IsName full names u ∨ full = true ∧ IsCutShort names u rest) := by
  induction names generalizing n with
  | nil => cases h
  | cons name names ih =>
    rw [takeName] at h
    split at h
    · obtain ⟨⟨m, r⟩, hm, hr⟩ := Option.map_eq_some_iff.mp h
      cases hr
      obtain ⟨u, rfl, hu⟩ := ih hm
      refine ⟨u, rfl, hu.imp ?_ ?_⟩
      · rintro ⟨a, ha, hau⟩
        exact ⟨a, List.mem_cons_of_mem name ha, hau⟩
      · rintro ⟨hfull, a, ha, hau⟩
        exact ⟨hfull, a, List.mem_cons_of_mem name ha, hau⟩
    · next r hr =>
      obtain ⟨u, rfl, hu⟩ := dropWord?_eq_some hr
      cases full with
      | false =>
        cases h
        exact ⟨u, rfl, .inl ⟨name, List.mem_cons_self, hu⟩⟩
      | true =>
        cases hd : dropWord? (name.toList.drop 3) r with
        | none =>
          rw [hd] at h
          cases h
          have hcut := not_sameLetters_of_dropWord? hd
          exact ⟨u, rfl, .inr ⟨rfl, name, List.mem_cons_self, hu, hcut⟩⟩
        | some r' =>
          rw [hd] at h
          cases h
          obtain ⟨v, rfl, hv⟩ := dropWord?_eq_some hd
          refine ⟨u ++ v, by simp, .inl ⟨name, List.mem_cons_self, ?_⟩⟩
          rw [if_pos rfl, ← List.take_append_drop 3 name.toList, SameLetters, List.map_append,
            List.map_append]
          exact congrArg₂ (· ++ ·) hu hv

theorem exists_of_takeMeridiem {b : Bool} {s rest : List Char}
    (h : takeMeridiem s = some (b, rest)) :
    ∃ u, s = u ++ rest ∧ SameLetters (if b then ['p', 'm'] else ['a', 'm']) u := by
  unfold takeMeridiem at h
  split at h
  · next r hr =>
    cases h
    exact dropWord?_eq_some hr
  · obtain ⟨r, hr, heq⟩ := Option.map_eq_some_iff.mp h
    cases heq
    exact dropWord?_eq_some hr

/-! ## Pieces -/

theorem Token.exists_takes_of_take {t : Token} {p : Reading} {s rest : List Char}
    (h : t.take s = some (p, rest)) (ht : t ≠ timestamp) :
    ∃ x, s = x ++ rest ∧ (Piece.token t).Takes x rest := by
  cases t <;> obtain ⟨⟨n, u⟩, hn, hu⟩ := Option.map_eq_some_iff.mp h <;> cases hu
  case timestamp => exact absurd rfl ht
  case year => exact exists_takes_of_takeYear hn
  case milliseconds | microseconds => exact exists_takes_of_takeFixedNumber rfl (by omega) hn
  case offset => exact exists_takes_of_takeOffset hn
  case meridiem =>
    obtain ⟨u, hs, hu⟩ := exists_of_takeMeridiem hn
    refine ⟨u, hs, .word rfl (.inl ?_)⟩
    split at hu
    · exact .inr hu
    · exact .inl hu
  case weekday | monthName =>
    obtain ⟨u, hs, hu⟩ := exists_of_takeName hn
    refine ⟨u, hs, .word rfl (hu.imp id ?_)⟩
    rintro ⟨rfl, hcut⟩
    exact hcut
  all_goals exact exists_takes_of_takeNumberIn rfl hn

/-- What the reader takes for one piece. -/
theorem Piece.exists_takes_of_read {p : Piece} {r r' : Reading} {s rest : List Char}
    (h : p.read r s = some (r', rest)) (ht : p ≠ token .timestamp) :
    ∃ x, s = x ++ rest ∧ p.Takes x rest := by
  cases p with
  | token t =>
    rw [read, t.read_eq_merge] at h
    obtain ⟨⟨q, u⟩, hq, h⟩ := Option.bind_eq_some_iff.mp h
    obtain ⟨q', -, hq'⟩ := Option.map_eq_some_iff.mp h
    cases hq'
    exact t.exists_takes_of_take hq fun hne => ht (hne ▸ rfl)
  | literal c =>
    simp only [read] at h
    split at h
    · next hc =>
      cases h
      obtain ⟨bs, hb, hs⟩ := exists_blanks_append_dropBlank s
      exact ⟨bs, hs, .blank hc hb fun _ => not_of_mem_head?_dropWhile⟩
    · next hc =>
      cases s with
      | nil => cases h
      | cons d s =>
        simp only [Option.ite_none_right_eq_some, Option.some.injEq, Prod.mk.injEq] at h
        obtain ⟨rfl, -, rfl⟩ := h
        exact ⟨[d], rfl, .char (by simpa using hc)⟩

theorem reads_of_ofPieces {ps : List Piece} {r q : Reading} {s : List Char}
    (h : Reading.ofPieces ps r s = some q) (ht : .token .timestamp ∉ ps) : Reads ps s := by
  induction ps generalizing r s with
  | nil =>
    simp only [Reading.ofPieces, Option.ite_none_right_eq_some, List.isEmpty_iff] at h
    exact h.1 ▸ .nil
  | cons p ps ih =>
    obtain ⟨⟨r', u⟩, hp, h⟩ := Option.bind_eq_some_iff.mp h
    rw [List.mem_cons, not_or] at ht
    obtain ⟨x, hs, hx⟩ := Piece.exists_takes_of_read hp (Ne.symm ht.1)
    rw [hs]
    exact .cons hx (ih h ht.2)

end DatePattern

end FormCheck
