import FormCheck.Proofs.Regex.Language
import FormCheck.Validator.Builtin

/-!
# The grammar of e-mail addresses

An address is a local part, an at sign and a domain. What the validator accepts is described here
without its regular expression: by the characters, the lengths and the places of the dots.

## Main definitions

* `Email.IsLocalPart`, `Email.IsLabel`, `Email.IsDomain`, `Email.IsAddress`.

## Main results

* `Email.matches_addressShape_iff`: what the shape of an address leaves to be checked.
* `Email.isAddress_iff`: the texts that are accepted.
* `Email.IsAddress.count_at`, `Email.IsAddress.toNat_mem`: an address has a single at sign, and
  neither blanks nor characters outside ASCII.
-/

namespace FormCheck.Email

/-! ## The grammar -/

/-- The characters other than letters and digits that a local part may hold. -/
def localMarks : List Char :=
  ['.', '!', '#', '$', '%', '&', '\x27', '*', '+', '/', '=', '?', '^', '_', '\x60', '{', '|', '}',
    '~', '-']

structure IsLocalPart (s : List Char) : Prop where
  length_pos : 1 ≤ s.length
  length_le : s.length ≤ 64
  chars : ∀ c ∈ s, c.isAlphanum = true ∨ c ∈ localMarks
  head_ne : s.head? ≠ some '.'
  last_ne : s.getLast? ≠ some '.'
  dots_apart : ¬['.', '.'] <:+: s

structure IsLabel (s : List Char) : Prop where
  length_pos : 1 ≤ s.length
  length_le : s.length ≤ 63
  chars : ∀ c ∈ s, c.isAlphanum = true ∨ c = '-'
  head : ∀ c ∈ s.head?, c.isAlphanum = true
  last : ∀ c ∈ s.getLast?, c.isAlphanum = true

/-- Two or more labels with dots between them. -/
def IsDomain (s : List Char) : Prop :=
  ∃ labels : List (List Char), 2 ≤ labels.length ∧ (∀ l ∈ labels, IsLabel l) ∧
    s = ['.'].intercalate labels

def IsAddress (value : String) : Prop :=
  value.utf8ByteSize ≤ 254 ∧ ∃ name domain, value.toList = name ++ '@' :: domain ∧
    IsLocalPart name ∧ IsDomain domain

/-! ## Characters -/

theorem isAlphanum_iff {c : Char} :
    c.isAlphanum = true ↔ 97 ≤ c.toNat ∧ c.toNat ≤ 122 ∨ 65 ≤ c.toNat ∧ c.toNat ≤ 90 ∨
      48 ≤ c.toNat ∧ c.toNat ≤ 57 := by
  have hunfold : c.isAlphanum =
      (decide (65 ≤ c.val ∧ c.val ≤ 90) || (decide (97 ≤ c.val) && decide (c.val ≤ 122)) ||
        (decide (48 ≤ c.val) && decide (c.val ≤ 57))) := rfl
  have hc : c.val.toNat = c.toNat := rfl
  simp [hunfold, UInt32.le_iff_toNat_le, hc]
  omega

/-- The classes of an address are those of letters, digits and a few marks. -/
theorem contains_alphanumeric_append_iff (marks : List Char) {c : Char} :
    (CharClass.within
        ([('a', 'z'), ('A', 'Z'), ('0', '9')] ++ marks.map fun m => (m, m))).contains c = true ↔
      c.isAlphanum = true ∨ c ∈ marks := by
  have hc : c.val.toNat = c.toNat := rfl
  have hmarks : (CharClass.oneOf marks).contains c = true ↔ c ∈ marks := CharClass.contains_oneOf
  rw [CharClass.oneOf, CharClass.contains] at hmarks
  rw [CharClass.contains, List.any_append, Bool.or_eq_true, hmarks]
  refine or_congr_left ?_
  simp [isAlphanum_iff, Char.le_def, UInt32.le_iff_toNat_le, hc]

theorem localClass_contains_iff {c : Char} :
    localClass.contains c = true ↔ c.isAlphanum = true ∨ c ∈ localMarks :=
  contains_alphanumeric_append_iff localMarks

theorem labelClass_contains_iff {c : Char} :
    labelClass.contains c = true ↔ c.isAlphanum = true ∨ c = '-' := by
  have h : labelClass.contains c = true ↔ c.isAlphanum = true ∨ c ∈ ['-'] :=
    contains_alphanumeric_append_iff ['-']
  rwa [List.mem_singleton] at h

theorem alphanumericClass_contains_iff {c : Char} :
    alphanumericClass.contains c = true ↔ c.isAlphanum = true := by
  have h : alphanumericClass.contains c = true ↔ c.isAlphanum = true ∨ c ∈ [] :=
    contains_alphanumeric_append_iff []
  rwa [or_iff_left List.not_mem_nil] at h

theorem toNat_mem_of_isAlphanum {c : Char} (h : c.isAlphanum = true) :
    48 ≤ c.toNat ∧ c.toNat ≤ 122 ∧ c.toNat ≠ 64 := by
  rw [isAlphanum_iff] at h
  omega

/-! ## Labels -/

theorem getLast?_cons_append_singleton {α : Type} (a b : α) (l : List α) :
    (a :: (l ++ [b])).getLast? = some b := by
  rw [← List.cons_append, List.getLast?_concat]

theorem matches_labelShape_iff {s : List Char} : Regex.Matches labelShape s ↔ IsLabel s := by
  simp only [labelShape, Regex.matches_seq_iff, Regex.matches_opt_iff, Regex.matches_char_iff,
    Regex.matches_upTo_char_iff, alphanumericClass_contains_iff, labelClass_contains_iff]
  constructor
  · rintro ⟨_, _, ⟨c, hc, rfl⟩, ⟨m, _, ⟨hlen, hm⟩, ⟨d, hd, rfl⟩, rfl⟩ | rfl, rfl⟩
    · constructor
      · simp
      · simp only [List.length_append, List.length_singleton]
        omega
      · simp only [List.singleton_append, List.forall_mem_cons, List.forall_mem_append]
        exact ⟨.inl hc, hm, .inl hd, by simp⟩
      · simpa using hc
      · simpa [getLast?_cons_append_singleton] using hd
    · constructor
      all_goals simp [hc]
  · rintro ⟨hpos, hlen, hchars, hhead, hlast⟩
    obtain ⟨c, t, rfl⟩ := List.exists_cons_of_length_pos hpos
    have hc : c.isAlphanum = true := by simpa using hhead
    refine ⟨[c], t, ⟨c, hc, rfl⟩, ?_, rfl⟩
    rcases List.eq_nil_or_concat' t with rfl | ⟨m, d, rfl⟩
    · exact .inr rfl
    · have hd : d.isAlphanum = true := hlast d (getLast?_cons_append_singleton c d m)
      have hm : ∀ e ∈ m, e.isAlphanum = true ∨ e = '-' := by
        intro e he
        exact hchars e (by simp [he])
      have hlen : m.length ≤ 61 := by
        rw [List.length_cons, List.length_append, List.length_singleton] at hlen
        omega
      exact .inl ⟨m, [d], ⟨hlen, hm⟩, ⟨d, hd, rfl⟩, rfl⟩

/-! ## Domains -/

theorem intercalate_cons_eq_append_flatMap (l : List Char) (ls : List (List Char)) :
    ['.'].intercalate (l :: ls) = l ++ ls.flatMap ('.' :: ·) := by
  induction ls generalizing l with
  | nil => simp
  | cons m ls ih => rw [List.intercalate_cons_cons, ih, List.flatMap_cons]; simp

theorem matches_dottedLabel_iff {s : List Char} :
    Regex.Matches (.seq (.exactly '.') labelShape) s ↔ ∃ l, IsLabel l ∧ s = '.' :: l := by
  simp only [Regex.matches_seq_iff, Regex.matches_exactly_iff, matches_labelShape_iff]
  constructor
  · rintro ⟨_, l, rfl, hl, rfl⟩
    exact ⟨l, hl, rfl⟩
  · rintro ⟨l, hl, rfl⟩
    exact ⟨['.'], l, rfl, hl, rfl⟩

theorem isDomain_iff {s : List Char} :
    IsDomain s ↔ ∃ u v, Regex.Matches labelShape u ∧
      Regex.Matches (.plus (.seq (.exactly '.') labelShape)) v ∧ s = u ++ v := by
  simp only [Regex.matches_plus_iff fun _ => matches_dottedLabel_iff, matches_labelShape_iff]
  constructor
  · rintro ⟨labels, hlen, hlabels, rfl⟩
    obtain ⟨l, ls, rfl⟩ := List.exists_cons_of_length_pos (Nat.lt_of_lt_of_le Nat.two_pos hlen)
    obtain ⟨hl, hls⟩ := List.forall_mem_cons.mp hlabels
    refine ⟨l, _, hl, ⟨ls, ?_, hls, rfl⟩, intercalate_cons_eq_append_flatMap l ls⟩
    rintro rfl
    simp at hlen
  · rintro ⟨l, _, hl, ⟨ls, hne, hls, rfl⟩, rfl⟩
    refine ⟨l :: ls, ?_, List.forall_mem_cons.mpr ⟨hl, hls⟩,
      (intercalate_cons_eq_append_flatMap l ls).symm⟩
    have hpos := List.length_pos_iff.mpr hne
    rw [List.length_cons]
    omega

/-! ## Addresses -/

/-- The shape asks for the characters of the local part, and for all that makes a domain. -/
theorem matches_addressShape_iff {s : List Char} :
    Regex.Matches addressShape s ↔ ∃ name domain, s = name ++ '@' :: domain ∧
      (name ≠ [] ∧ ∀ c ∈ name, c.isAlphanum = true ∨ c ∈ localMarks) ∧ IsDomain domain := by
  have hchain : addressShape =
      .seq (.plus (.char localClass)) (.seq (.exactly '@') (.seq labelShape
        (.seq (.plus (.seq (.exactly '.') labelShape)) .empty))) := rfl
  simp only [hchain, Regex.matches_seq_iff, Regex.matches_plus_char_iff, localClass_contains_iff,
    Regex.matches_exactly_iff, Regex.matches_empty_iff, isDomain_iff]
  constructor
  · rintro ⟨name, _, hname, ⟨_, _, rfl, ⟨u, _, hu, ⟨v, _, hv, rfl, rfl⟩, rfl⟩, rfl⟩, rfl⟩
    exact ⟨name, u ++ v, by simp, hname, u, v, hu, hv, rfl⟩
  · rintro ⟨name, _, rfl, hname, u, v, hu, hv, rfl⟩
    exact ⟨name, _, hname, ⟨_, _, rfl, ⟨u, v, hu, ⟨v, [], hv, rfl, by simp⟩, rfl⟩, rfl⟩, rfl⟩

/-- No label holds an at sign or a dot. -/
theorem IsLabel.toNat_mem {s : List Char} (h : IsLabel s) {c : Char} (hc : c ∈ s) :
    45 ≤ c.toNat ∧ c.toNat ≤ 122 ∧ c.toNat ≠ 64 := by
  rcases h.chars c hc with h | rfl
  · have := toNat_mem_of_isAlphanum h
    omega
  · decide

theorem IsDomain.toNat_mem {s : List Char} (h : IsDomain s) {c : Char} (hc : c ∈ s) :
    45 ≤ c.toNat ∧ c.toNat ≤ 122 ∧ c.toNat ≠ 64 := by
  obtain ⟨labels, -, hlabels, rfl⟩ := h
  rcases labels with _ | ⟨l, ls⟩
  · simp at hc
  rw [intercalate_cons_eq_append_flatMap, List.mem_append, List.mem_flatMap] at hc
  obtain ⟨hl, hls⟩ := List.forall_mem_cons.mp hlabels
  rcases hc with hc | ⟨m, hm, hc⟩
  · exact hl.toNat_mem hc
  · rcases List.mem_cons.mp hc with rfl | hc
    · decide
    · exact (hls m hm).toNat_mem hc

theorem IsDomain.at_notMem {s : List Char} (h : IsDomain s) : '@' ∉ s := by
  intro hat
  exact (h.toNat_mem hat).2.2 rfl

/-- The last at sign is the one before the domain. -/
theorem localPart_append {name domain : List Char} (h : '@' ∉ domain) :
    localPart (name ++ '@' :: domain) = name := by
  have hreverse : (name ++ '@' :: domain).reverse = domain.reverse ++ '@' :: name.reverse := by
    simp
  have hdomain : ∀ c ∈ domain.reverse, (c != '@') = true := by
    intro c hc
    rw [bne_iff_ne]
    rintro rfl
    exact h (List.mem_reverse.mp hc)
  rw [localPart, hreverse, List.dropWhile_append_of_pos hdomain]
  simp

theorem hasDoubleDot_iff {s : List Char} : hasDoubleDot s = true ↔ ['.', '.'] <:+: s := by
  fun_induction hasDoubleDot s with
  | case1 s => exact ⟨fun _ => ⟨[], s, rfl⟩, fun _ => rfl⟩
  | case2 c s hne ih =>
    rw [ih, List.infix_cons_iff, or_iff_right]
    rintro ⟨t, ht⟩
    obtain ⟨rfl, rfl⟩ := List.cons.inj ht
    exact hne t rfl rfl
  | case3 => simp

/-- The local part has the characters that the shape asks for, and keeps the limits. -/
theorem isLocalPart_iff {name : List Char} :
    IsLocalPart name ↔
      (name ≠ [] ∧ ∀ c ∈ name, c.isAlphanum = true ∨ c ∈ localMarks) ∧ name.length ≤ 64 ∧
        name.head? ≠ some '.' ∧ name.getLast? ≠ some '.' ∧ hasDoubleDot name = false := by
  have hdots : hasDoubleDot name = false ↔ ¬['.', '.'] <:+: name := by
    rw [← hasDoubleDot_iff, Bool.not_eq_true]
  rw [hdots, ← List.length_pos_iff]
  constructor
  · intro h
    exact ⟨⟨h.length_pos, h.chars⟩, h.length_le, h.head_ne, h.last_ne, h.dots_apart⟩
  · rintro ⟨⟨hpos, hchars⟩, hlen, hhead, hlast, hdots⟩
    exact ⟨hpos, hlen, hchars, hhead, hlast, hdots⟩

theorem isAddress_iff {value : String} : isAddress value = true ↔ IsAddress value := by
  simp only [isAddress, Bool.and_eq_true, decide_eq_true_eq, Regex.accepts_iff,
    matches_addressShape_iff, bne_iff_ne, Bool.not_eq_true', and_assoc]
  refine and_congr_right fun _ => ?_
  -- The limits are put on the text before the last at sign. It is the local part of the shape,
  -- since a domain holds none.
  constructor
  · rintro ⟨⟨name, domain, heq, hne, hchars, hdomain⟩, hlen, hhead, hlast, hdots⟩
    rw [heq, localPart_append hdomain.at_notMem] at hlen hhead hlast hdots
    have hname := isLocalPart_iff.mpr ⟨⟨hne, hchars⟩, hlen, hhead, hlast, hdots⟩
    exact ⟨name, domain, heq, hname, hdomain⟩
  · rintro ⟨name, domain, heq, hname, hdomain⟩
    obtain ⟨⟨hne, hchars⟩, hlimits⟩ := isLocalPart_iff.mp hname
    rw [heq, localPart_append hdomain.at_notMem]
    exact ⟨⟨name, domain, rfl, hne, hchars, hdomain⟩, hlimits⟩

/-! ## What addresses cannot hold -/

theorem IsLocalPart.toNat_mem {s : List Char} (h : IsLocalPart s) {c : Char} (hc : c ∈ s) :
    0x20 < c.toNat ∧ c.toNat < 0x7f ∧ c ≠ '@' := by
  have hmarks : ∀ m ∈ localMarks, 0x20 < m.toNat ∧ m.toNat < 0x7f ∧ m ≠ '@' := by
    simp [localMarks]
  rcases h.chars c hc with h | h
  · obtain ⟨hlow, hhigh, hat⟩ := toNat_mem_of_isAlphanum h
    refine ⟨by omega, by omega, ?_⟩
    rintro rfl
    exact hat rfl
  · exact hmarks c h

/-- All characters of an address can be seen. -/
theorem IsAddress.toNat_mem {value : String} (h : IsAddress value) {c : Char}
    (hc : c ∈ value.toList) : 0x20 < c.toNat ∧ c.toNat < 0x7f := by
  obtain ⟨-, name, domain, heq, hname, hdomain⟩ := h
  rw [heq, List.mem_append, List.mem_cons] at hc
  rcases hc with hc | rfl | hc
  · have := hname.toNat_mem hc
    omega
  · decide
  · have := hdomain.toNat_mem hc
    omega

theorem IsAddress.count_at {value : String} (h : IsAddress value) : value.toList.count '@' = 1 := by
  obtain ⟨-, name, domain, heq, hname, hdomain⟩ := h
  have hat : '@' ∉ name := fun hat => (hname.toNat_mem hat).2.2 rfl
  rw [heq, List.count_append, List.count_cons_self, List.count_eq_zero.mpr hat,
    List.count_eq_zero.mpr hdomain.at_notMem]

/-- The validator accepts addresses and nothing else, whatever its modifier. A value that it accepts
has one at sign, and neither blanks nor characters outside ASCII. -/
theorem accepts_email_iff (value : String) (modifier : Option String) :
    (Validator.email.accepts (some value) modifier = true ↔ IsAddress value) ∧
      (Validator.email.accepts (some value) modifier = true →
        value.toList.count '@' = 1 ∧ ∀ c ∈ value.toList, 0x20 < c.toNat ∧ c.toNat < 0x7f) := by
  have hiff : Validator.email.accepts (some value) modifier = true ↔ IsAddress value :=
    isAddress_iff
  refine ⟨hiff, fun haccepts => ?_⟩
  have h := hiff.mp haccepts
  exact ⟨h.count_at, fun c hc => h.toNat_mem hc⟩

end FormCheck.Email
