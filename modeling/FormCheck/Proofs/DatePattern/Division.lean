import FormCheck.Proofs.DatePattern.Alignment
import FormCheck.Proofs.DatePattern.Moment
import FormCheck.Proofs.DatePattern.Timestamp
import Mathlib.Data.List.Pairwise

/-!
# Dividing a value among the pieces of a pattern

Every token has a form: digits of its width, a name in full, a name of three letters, and so on. A
value divides into such forms in at most one way, up to digits that move from one number to the
next. This stays so if a token of full names may also stand for three letters, provided that the
name does not go on behind them.

## Main definitions

* `Token.Documented`, `Piece.Documented`: the forms of tokens and pieces.
* `IsCutShort`, `Piece.Admits`: the same, with names that end after three letters.
* `Divides`: the ways to divide a value into what the pieces admit.
* `DifferBy`: texts of which one is the other with characters of one kind in front.

## Main results

* `Token.Admits.eq`: two words in front of one text are the same.
* `Divides.documented`: if a value divides into the forms, then all its divisions do.
-/

namespace FormCheck.DatePattern

open Text

/-! ## Forms -/

/-- Whether a text is one of the names, in full or its first three letters. -/
def IsName (full : Bool) (names : List String) (u : List Char) : Prop :=
  ∃ name ∈ names, SameLetters (if full then name.toList else shortName name) u

/-- Whether a text consists of the first three letters of a name, and `rest` does not go on with the
other letters. -/
def IsCutShort (names : List String) (u rest : List Char) : Prop :=
  ∃ name ∈ names, SameLetters (shortName name) u ∧
    ∀ v, v <+: rest → ¬SameLetters (name.toList.drop 3) v

/-- Whether a text is a sign, two digits for hours and two for minutes, with a colon between these
or without. -/
inductive WritesOffset (colon : Bool) : List Char → Prop where
  | mk {sign : Char} {hours minutes : List Char} (hs : sign = '+' ∨ sign = '-')
      (hh : IsNumber 2 2 hours) (hm : IsNumber 2 2 minutes) :
      WritesOffset colon (sign :: (hours ++ ((if colon then [':'] else []) ++ minutes)))

namespace Token

/-- Whether a text has the form of a token. Numbers have their width in ASCII digits, and names and
halves of the day are spelled in letters of either case. -/
def Documented (t : Token) (u : List Char) : Prop :=
  match t with
  | day padded | month padded | hour padded | clockHour padded =>
    IsNumber (if padded then 2 else 1) 2 u
  | yearOfCentury | minute | second => IsNumber 2 2 u
  | year => IsNumber 4 4 u
  | milliseconds => IsNumber 3 3 u
  | microseconds => IsNumber 6 6 u
  | meridiem => SameLetters ['a', 'm'] u ∨ SameLetters ['p', 'm'] u
  | weekday full => IsName full Calendar.weekdayNames u
  | monthName full => IsName full Calendar.monthNames u
  | timestamp => ∃ n, WritesInteger n u
  | offset colon => WritesOffset colon u

/-- The names that a token stands for in full. -/
def fullNames : Token → List String
  | weekday full => if full then Calendar.weekdayNames else []
  | monthName full => if full then Calendar.monthNames else []
  | _ => []

/-- Whether a text in front of `rest` has the form of a token, or is a full name cut short. -/
def Admits (t : Token) (u rest : List Char) : Prop :=
  t.Documented u ∨ IsCutShort t.fullNames u rest

end Token

namespace Piece

def Documented : Piece → List Char → Prop
  | token t, u => t.Documented u
  | literal c, u => u = [c]

def Admits : Piece → List Char → List Char → Prop
  | token t, u, rest => t.Admits u rest
  | literal c, u, _ => u = [c]

end Piece

/-- Whether the texts are what the pieces admit, one after the other. -/
inductive Divides : List Piece → List (List Char) → Prop where
  | nil : Divides [] []
  | cons {p : Piece} {ps : List Piece} {u : List Char} {us : List (List Char)}
      (hp : p.Admits u us.flatten) (hs : Divides ps us) : Divides (p :: ps) (u :: us)

theorem not_isCutShort_nil {u rest : List Char} : ¬IsCutShort [] u rest := by
  rintro ⟨_, h, -⟩
  cases h

theorem Token.Admits.documented {t : Token} {u rest : List Char} (h : t.Admits u rest)
    (ht : t.fullNames = []) : t.Documented u := by
  rw [Admits, ht] at h
  exact h.resolve_right not_isCutShort_nil

/-- Without full names, what the pieces admit are their forms. -/
theorem Divides.documented_of_fullNames {ps : List Piece} {us : List (List Char)}
    (h : Divides ps us) (ht : ∀ t, .token t ∈ ps → t.fullNames = []) :
    List.Forall₂ Piece.Documented ps us := by
  induction h with
  | nil => exact .nil
  | @cons p ps u us hp _ ih =>
    refine .cons ?_ (ih fun t hmem => ht t (List.mem_cons_of_mem p hmem))
    cases p with
    | token t => exact Token.Admits.documented hp (ht t List.mem_cons_self)
    | literal c => exact hp

/-! ## Numbers and offsets -/

/-- The greatest number of digits of a token that takes a number. -/
def Token.width? : Token → Option Nat
  | day _ | month _ | hour _ | clockHour _ | yearOfCentury | minute | second => some 2
  | year => some 4
  | milliseconds => some 3
  | microseconds => some 6
  | _ => none

/-- A token other than a timestamp takes a number, an offset or a word. -/
theorem Token.kind (t : Token) :
    t = timestamp ∨ (∃ width, t.width? = some width) ∨ (∃ colon, t = offset colon) ∨
      t.isWord = true := by
  cases t <;> simp [width?, isWord]

theorem Token.Documented.isNumber {t : Token} {u : List Char} (h : t.Documented u) {width : Nat}
    (ht : t.width? = some width) : IsNumber 1 width u := by
  cases t with
  | day padded | month padded | hour padded | clockHour padded =>
    cases ht
    exact ⟨Nat.le_trans (by split <;> omega) h.lo_le, h.le_hi, h.isDigit⟩
  | yearOfCentury | minute | second | year | milliseconds | microseconds =>
    cases ht
    exact ⟨Nat.le_trans (by omega) h.lo_le, h.le_hi, h.isDigit⟩
  | _ => cases ht

theorem Token.fullNames_of_width? {t : Token} {width : Nat} (ht : t.width? = some width) :
    t.fullNames = [] := by
  cases t with
  | weekday | monthName => cases ht
  | _ => rfl

theorem WritesOffset.length_eq {colon : Bool} {u : List Char} (h : WritesOffset colon u) :
    u.length = 5 + (if colon then 1 else 0) := by
  obtain ⟨-, hh, hm⟩ := h
  cases colon <;> simp [hh.length_eq, hm.length_eq]

/-! ## Words -/

/-- Names are spelled in letters. -/
def Lettered (names : List String) : Prop :=
  ∀ name ∈ names, ∀ c ∈ name.toList, CharClass.asciiLetter.contains c = true

theorem lettered_weekdayNames : Lettered Calendar.weekdayNames := by
  simp [Lettered, Calendar.weekdayNames, asciiLetter_contains_iff]

theorem lettered_monthNames : Lettered Calendar.monthNames := by
  simp [Lettered, Calendar.monthNames, asciiLetter_contains_iff]

section Word

variable {names : List String} {full : Bool} {t : Token} {u v rest rest' : List Char}

theorem SameLetters.take {w : List Char} (h : SameLetters w u) (n : Nat) :
    SameLetters (w.take n) (u.take n) := by
  rw [SameLetters, List.map_take, List.map_take]
  exact congrArg (List.take n) h

theorem SameLetters.drop {w : List Char} (h : SameLetters w u) (n : Nat) :
    SameLetters (w.drop n) (u.drop n) := by
  rw [SameLetters, List.map_drop, List.map_drop]
  exact congrArg (List.drop n) h

theorem SameLetters.ne_nil {w : List Char} (h : SameLetters w u) (hw : w ≠ []) : u ≠ [] :=
  List.ne_nil_of_length_pos (h.length_eq ▸ List.length_pos_iff.mpr hw)

theorem Abbreviable.three_le (hn : Abbreviable names) {name : String} (hname : name ∈ names) :
    3 ≤ name.toList.length := by
  rw [← hn.length name hname]
  exact (List.take_sublist _ _).length_le

theorem IsName.letters (h : IsName full names u) (hn : Abbreviable names) (hl : Lettered names) :
    u ≠ [] ∧ ∀ c ∈ u, CharClass.asciiLetter.contains c = true := by
  obtain ⟨name, hname, hu⟩ := h
  cases full with
  | true =>
    have hthree : 0 < name.toList.length := Nat.lt_of_lt_of_le (by omega) (hn.three_le hname)
    exact ⟨hu.ne_nil (List.ne_nil_of_length_pos hthree), hu.asciiLetter (hl name hname)⟩
  | false =>
    have hthree : 0 < (shortName name).length := by
      rw [hn.length name hname]
      omega
    exact ⟨hu.ne_nil (List.ne_nil_of_length_pos hthree), hu.asciiLetter (hn.letters name hname)⟩

theorem IsCutShort.isName (h : IsCutShort names u rest) : IsName false names u := by
  obtain ⟨name, hname, hu, -⟩ := h
  exact ⟨name, hname, hu⟩

theorem letters_of_isName_or_isCutShort (hn : Abbreviable names) (hl : Lettered names)
    (h : IsName full names u ∨ IsCutShort (if full then names else []) u rest) :
    u ≠ [] ∧ ∀ c ∈ u, CharClass.asciiLetter.contains c = true := by
  rcases h with h | h
  · exact h.letters hn hl
  · cases full with
    | true => exact h.isName.letters hn hl
    | false => exact absurd h not_isCutShort_nil

/-- The slices of words are made of letters. -/
theorem Token.Admits.letters (h : t.Admits u rest) (hw : t.isWord = true) :
    u ≠ [] ∧ ∀ c ∈ u, CharClass.asciiLetter.contains c = true := by
  cases t with
  | meridiem =>
    have hu : Token.meridiem.IsSlice u := by
      rcases h.documented rfl with hu | hu
      · exact isSlice_meridiem_of_sameLetters (.inl rfl) hu
      · exact isSlice_meridiem_of_sameLetters (.inr rfl) hu
    exact hu.of_isWord rfl rfl
  | weekday =>
    exact letters_of_isName_or_isCutShort abbreviable_weekdayNames lettered_weekdayNames h
  | monthName => exact letters_of_isName_or_isCutShort abbreviable_monthNames lettered_monthNames h
  | _ => cases hw

/-- The names of a list are told apart by their first three letters. -/
theorem Abbreviable.eq_of_sameLetters (hn : Abbreviable names) {a b : String} (ha : a ∈ names)
    (hb : b ∈ names) (hau : SameLetters (shortName a) u) (hbu : SameLetters (shortName b) u) :
    a = b := by
  have hsymm : Std.Symm fun a b => ¬SameLetters (shortName a) (shortName b) :=
    ⟨fun _ _ h hs => h hs.symm⟩
  by_contra hne
  exact hn.distinct.forall ha hb hne (hau.trans hbu.symm)

/-- A name, in full or cut short, starts with its first three letters. -/
theorem exists_name_take (hn : Abbreviable names)
    (h : IsName true names u ∨ IsCutShort names u rest) :
    ∃ name ∈ names, SameLetters (shortName name) ((u ++ rest).take 3) ∧
      (SameLetters name.toList u ∨
        u.length = 3 ∧ ∀ v, v <+: rest → ¬SameLetters (name.toList.drop 3) v) := by
  rcases h with ⟨name, hname, hu⟩ | ⟨name, hname, hu, hcut⟩
  · have hlen : 3 ≤ u.length := by
      rw [← hu.length_eq]
      exact hn.three_le hname
    refine ⟨name, hname, ?_, .inl hu⟩
    rw [List.take_append_of_le_length hlen]
    exact hu.take 3
  · have hlen : u.length = 3 := hu.length_eq.symm.trans (hn.length name hname)
    refine ⟨name, hname, ?_, .inr ⟨hlen, hcut⟩⟩
    rwa [List.take_append_of_le_length hlen.ge, List.take_of_length_le hlen.le]

/-- A name in full is not also cut short. -/
theorem append_ne_append_of_cut {name : String} (hu : SameLetters name.toList u)
    (hname : 3 ≤ name.toList.length) (hv : v.length = 3)
    (hcut : ∀ w, w <+: rest' → ¬SameLetters (name.toList.drop 3) w) : u ++ rest ≠ v ++ rest' := by
  intro heq
  have hlen : v.length ≤ u.length := by
    rw [← hu.length_eq]
    omega
  obtain ⟨w, rfl⟩ : v <+: u :=
    List.prefix_of_prefix_length_le (heq ▸ List.prefix_append v rest') (List.prefix_append u rest)
      hlen
  rw [List.append_assoc, List.append_cancel_left_eq] at heq
  refine hcut w ⟨rest, heq⟩ ?_
  have hdrop := hu.drop 3
  rwa [← hv, List.drop_left, hv] at hdrop

theorem IsName.length_eq (h : IsName false names u) (hn : Abbreviable names) : u.length = 3 := by
  obtain ⟨name, hname, hu⟩ := h
  exact hu.length_eq.symm.trans (hn.length name hname)

/-- A text starts with one name at most, which is in full if it goes on so. -/
theorem eq_of_isName_or_isCutShort (hn : Abbreviable names)
    (h : IsName full names u ∨ IsCutShort (if full then names else []) u rest)
    (h' : IsName full names v ∨ IsCutShort (if full then names else []) v rest')
    (heq : u ++ rest = v ++ rest') : u = v := by
  cases full with
  | false =>
    have hu := (h.resolve_right not_isCutShort_nil).length_eq hn
    have hv := (h'.resolve_right not_isCutShort_nil).length_eq hn
    exact List.append_inj_left heq (hu.trans hv.symm)
  | true =>
    obtain ⟨a, ha, hau, hu⟩ := exists_name_take hn h
    obtain ⟨b, hb, hbv, hv⟩ := exists_name_take hn h'
    rw [← heq] at hbv
    obtain rfl := hn.eq_of_sameLetters ha hb hau hbv
    have hthree := hn.three_le ha
    rcases hu with hu | ⟨hu, hcut⟩
    · rcases hv with hv | ⟨hv, hcut⟩
      · exact List.append_inj_left heq (hu.length_eq.symm.trans hv.length_eq)
      · exact absurd heq (append_ne_append_of_cut hu hthree hv hcut)
    · rcases hv with hv | ⟨hv, -⟩
      · exact absurd heq.symm (append_ne_append_of_cut hv hthree hu hcut)
      · exact List.append_inj_left heq (hu.trans hv.symm)

/-- A text starts with one word at most that a token admits there. -/
theorem Token.Admits.eq (h : t.Admits u rest) (h' : t.Admits v rest') (hw : t.isWord = true)
    (heq : u ++ rest = v ++ rest') : u = v := by
  cases t with
  | meridiem =>
    have hlen : ∀ {w r}, Token.meridiem.Admits w r → w.length = 2 := by
      intro w r hadmits
      rcases hadmits.documented rfl with hsame | hsame <;> exact hsame.length_eq.symm
    exact List.append_inj_left heq ((hlen h).trans (hlen h').symm)
  | weekday => exact eq_of_isName_or_isCutShort abbreviable_weekdayNames h h' heq
  | monthName => exact eq_of_isName_or_isCutShort abbreviable_monthNames h h' heq
  | _ => cases hw

end Word

/-! ## Texts that differ in front -/

/-- Whether one of two texts is the other with characters that satisfy `P` in front. -/
def DifferBy (P : Char → Prop) (s t : List Char) : Prop :=
  ∃ w, (∀ c ∈ w, P c) ∧ (s = w ++ t ∨ t = w ++ s)

namespace DifferBy

variable {P : Char → Prop} {s t u v : List Char} {c d : Char}

theorem refl (P : Char → Prop) (s : List Char) : DifferBy P s s := ⟨[], by simp, .inl rfl⟩

theorem symm (h : DifferBy P s t) : DifferBy P t s := by
  obtain ⟨w, hw, h⟩ := h
  exact ⟨w, hw, h.symm⟩

/-- What is left behind texts of such characters differs by such characters. -/
theorem of_append_eq (hu : ∀ c ∈ u, P c) (hv : ∀ c ∈ v, P c) (h : u ++ s = v ++ t) :
    DifferBy P s t := by
  rcases List.append_eq_append_iff.mp h with ⟨w, rfl, rfl⟩ | ⟨w, rfl, rfl⟩
  · exact ⟨w, fun c hc => hv c (List.mem_append_right u hc), .inl rfl⟩
  · exact ⟨w, fun c hc => hu c (List.mem_append_right v hc), .inr rfl⟩

theorem of_append (hu : ∀ c ∈ u, P c) (hv : ∀ c ∈ v, P c) (h : DifferBy P (u ++ s) (v ++ t)) :
    DifferBy P s t := by
  obtain ⟨w, hw, h | h⟩ := h
  · rw [← List.append_assoc] at h
    exact of_append_eq hu (List.forall_mem_append.mpr ⟨hw, hv⟩) h
  · rw [← List.append_assoc] at h
    exact (of_append_eq hv (List.forall_mem_append.mpr ⟨hw, hu⟩) h).symm

theorem of_cons (h : DifferBy P (c :: s) (c :: t)) : DifferBy P s t := by
  obtain ⟨w, hw, h⟩ := h
  cases w with
  | nil =>
    rw [List.nil_append, List.nil_append, eq_comm, or_self, List.cons.injEq] at h
    exact h.2 ▸ refl P t
  | cons d w =>
    rw [List.forall_mem_cons] at hw
    have hd : P c ∧ (s = (w ++ [c]) ++ t ∨ t = (w ++ [c]) ++ s) := by
      rcases h with h | h
      · obtain ⟨rfl, rfl⟩ := List.cons.inj h
        exact ⟨hw.1, .inl (by simp)⟩
      · obtain ⟨rfl, rfl⟩ := List.cons.inj h
        exact ⟨hw.1, .inr (by simp)⟩
    exact ⟨w ++ [c], List.forall_mem_append.mpr ⟨hw.2, by simpa using hd.1⟩, hd.2⟩

/-- Texts that start with other characters do not differ. -/
theorem eq_of_cons (hc : ¬P c) (hd : ¬P d) (h : DifferBy P (c :: s) (d :: t)) :
    c :: s = d :: t := by
  obtain ⟨w, hw, h⟩ := h
  cases w with
  | nil => exact h.elim id Eq.symm
  | cons e w =>
    have he := hw e List.mem_cons_self
    rcases h with h | h
    · exact absurd ((List.cons.inj h).1 ▸ he) hc
    · exact absurd ((List.cons.inj h).1 ▸ he) hd

end DifferBy

/-! ## Divisions of one value -/

/-- Words in front of texts that differ by digits are the same, and so is what comes behind them. -/
theorem Token.Admits.eq_of_differBy {t : Token} {u v rest rest' : List Char}
    (h : t.Admits u rest) (h' : t.Admits v rest') (hw : t.isWord = true)
    (hd : DifferBy (fun c => c.isDigit = true) (u ++ rest) (v ++ rest')) :
    u = v ∧ rest = rest' := by
  have hcons : ∀ {w r}, t.Admits w r → ∃ c x, w = c :: x ∧ ¬c.isDigit = true := by
    intro w r hadmits
    obtain ⟨hne, hletter⟩ := hadmits.letters hw
    obtain ⟨c, x, rfl⟩ := List.exists_cons_of_ne_nil hne
    exact ⟨c, x, rfl, Bool.not_eq_true _ ▸ not_isDigit_of_asciiLetter (hletter c (by simp))⟩
  have heq : u ++ rest = v ++ rest' := by
    obtain ⟨c, x, rfl, hc⟩ := hcons h
    obtain ⟨d, y, rfl, hd'⟩ := hcons h'
    exact hd.eq_of_cons hc hd'
  obtain rfl := h.eq h' hw heq
  exact ⟨rfl, List.append_cancel_left heq⟩

theorem WritesOffset.eq_of_differBy {colon : Bool} {u v rest rest' : List Char}
    (h : WritesOffset colon u) (h' : WritesOffset colon v)
    (hd : DifferBy (fun c => c.isDigit = true) (u ++ rest) (v ++ rest')) : rest = rest' := by
  have hcons : ∀ {w}, WritesOffset colon w → ∃ c x, w = c :: x ∧ ¬c.isDigit = true := by
    rintro _ ⟨rfl | rfl, -, -⟩
    · exact ⟨_, _, rfl, by decide⟩
    · exact ⟨_, _, rfl, by decide⟩
  have hlen : u.length = v.length := h.length_eq.trans h'.length_eq.symm
  obtain ⟨c, x, rfl, hc⟩ := hcons h
  obtain ⟨d, y, rfl, hd'⟩ := hcons h'
  exact List.append_inj_right (hd.eq_of_cons hc hd') hlen

/-- If a value divides into the forms of a pattern, then all its divisions are into these forms:
digits may move from one number to the next, but the words stay the same. -/
theorem Divides.documented {ps : List Piece} {us vs : List (List Char)} (h : Divides ps us)
    (ht : .token .timestamp ∉ ps) (h' : List.Forall₂ Piece.Documented ps vs)
    (hd : DifferBy (fun c => c.isDigit = true) us.flatten vs.flatten) :
    List.Forall₂ Piece.Documented ps us := by
  induction h generalizing vs with
  | nil => exact .nil
  | @cons p ps u us hp _ ih =>
    obtain ⟨v, vs, hv, hvs, rfl⟩ := List.forall₂_cons_left_iff.mp h'
    rw [List.flatten_cons, List.flatten_cons] at hd
    have ih := @ih vs (fun hmem => ht (List.mem_cons_of_mem p hmem)) hvs
    cases p with
    | literal c =>
      obtain rfl : u = [c] := hp
      obtain rfl : v = [c] := hv
      exact .cons rfl (ih hd.of_cons)
    | token t =>
      have hp : t.Admits u us.flatten := hp
      have hv : t.Documented v := hv
      rcases t.kind with rfl | ⟨width, hwidth⟩ | ⟨colon, rfl⟩ | hword
      · exact absurd List.mem_cons_self ht
      · have hu := hp.documented (Token.fullNames_of_width? hwidth)
        exact .cons hu (ih (hd.of_append (hu.isNumber hwidth).isDigit (hv.isNumber hwidth).isDigit))
      · have hu := hp.documented rfl
        have hrest := WritesOffset.eq_of_differBy hu hv hd
        exact .cons hu (ih (hrest ▸ DifferBy.refl _ _))
      · obtain ⟨rfl, hrest⟩ := hp.eq_of_differBy (.inl hv) hword hd
        exact .cons hv (ih (hrest ▸ DifferBy.refl _ _))

end FormCheck.DatePattern
