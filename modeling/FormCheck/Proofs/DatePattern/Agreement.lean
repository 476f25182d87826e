import FormCheck.Proofs.DatePattern.Civil
import FormCheck.Proofs.DatePattern.Consumption

/-!
# Texts that agree with a day and a time

Each piece of a pattern takes a text of the value, and the text of a token says a component of a day
or of a time. What is read from the whole value is what these texts say, so that a day and a time
have the components that were read if they agree with each of the texts.

## Main definitions

* `numberIn`, `yearIn`: what texts write behind blanks.
* `Token.AgreesWith`: whether the text of a token is right for a day and a time.
* `Taken`: the texts that the pieces take.
* `Agree`, `AgreeOn`: whether a day and a time agree with all texts, or with those of some
  components.

## Main results

* `Taken.eq_of_flatten_eq`: a value has only one sequence of texts.
* `Token.exists_of_take`: what the text of one token says.
* `exists_taken_of_ofPieces`: what the texts of a pattern say.
-/

namespace FormCheck.DatePattern

open Text

/-! ## What a text says -/

/-- The number that a text writes behind blanks. -/
def numberIn (x : List Char) : Nat := ofDigits (dropBlank x)

/-- The year that a text writes behind blanks, with a sign or without. -/
def yearIn (x : List Char) : Int :=
  match dropBlank x with
  | '-' :: ds => -(ofDigits ds : Int)
  | '+' :: ds => ofDigits ds
  | ds => ofDigits ds

/-- Whether the text of a token is right for a day and a time of the day. Names are known by their
first three letters. An offset is a component of neither. -/
def Token.AgreesWith (d : Day) (c : TimeOfDay) (t : Token) (x : List Char) : Prop :=
  match t with
  | day _ => numberIn x = d.day
  | month _ => numberIn x = d.month
  | year => yearIn x = d.year
  | yearOfCentury => (numberIn x : Int) = d.year % 100
  | hour _ => numberIn x = c.hour
  | clockHour _ => numberIn x % 12 = c.hour % 12
  | minute => numberIn x = c.minute
  | second => numberIn x = c.second
  | meridiem => SameLetters (if c.hour < 12 then ['a', 'm'] else ['p', 'm']) x
  | weekday _ => Abbreviates Calendar.weekdayNames d.weekday (x.take 3)
  | monthName _ => Abbreviates Calendar.monthNames (d.month - 1) (x.take 3)
  | milliseconds => numberIn x * 1000000 = c.nanosecond
  | microseconds => numberIn x * 1000 = c.nanosecond
  | timestamp => (numberIn x : Int) = DatePattern.timestamp d c
  | offset _ => True

/-! ## The texts of a value -/

/-- Whether the texts are what the pieces take, one after the other. -/
inductive Taken : List Piece → List (List Char) → Prop where
  | nil : Taken [] []
  | cons {p : Piece} {ps : List Piece} {x : List Char} {xs : List (List Char)} {r : Reading}
      (hp : p.read {} (x ++ xs.flatten) = some (r, xs.flatten)) (hs : Taken ps xs) :
      Taken (p :: ps) (x :: xs)

theorem Taken.eq_of_flatten_eq {ps : List Piece} {xs ys : List (List Char)} (hx : Taken ps xs)
    (hy : Taken ps ys) (h : xs.flatten = ys.flatten) : xs = ys := by
  induction hx generalizing ys with
  | nil =>
    cases hy
    rfl
  | @cons p ps x xs r hp _ ih =>
    obtain _ | @⟨_, _, y, ys, r', hp', hs'⟩ := hy
    rw [List.flatten_cons, List.flatten_cons] at h
    rw [h, hp'] at hp
    obtain ⟨-, hrest⟩ := Prod.mk.inj (Option.some.inj hp)
    obtain rfl := ih hs' hrest.symm
    rw [List.append_cancel_right h]

/-- Whether a day and a time agree with the texts of all tokens that have one of the components. -/
def AgreeOn (cs : List Component) (d : Day) (c : TimeOfDay) (ps : List Piece)
    (xs : List (List Char)) : Prop :=
  List.Forall₂ (fun p x => ∀ t, p = .token t → (∃ k ∈ t.components, k ∈ cs) → t.AgreesWith d c x)
    ps xs

/-- Whether a day and a time agree with the texts of all tokens. -/
def Agree (d : Day) (c : TimeOfDay) (ps : List Piece) (xs : List (List Char)) : Prop :=
  List.Forall₂ (fun p x => ∀ t, p = .token t → t.AgreesWith d c x) ps xs

namespace Component

def ofDay : List Component := [year, yearOfCentury, month, day, weekday]

def ofTime : List Component := [afternoon, clockHour, minute, second, nanosecond]

def civil : List Component := ofDay ++ ofTime

/-- All but the offset, which no day and no time has. -/
def timed : List Component := civil ++ [timestamp]

end Component

theorem agree_iff_agreeOn {d : Day} {c : TimeOfDay} {ps : List Piece} {xs : List (List Char)} :
    Agree d c ps xs ↔ AgreeOn Component.timed d c ps xs := by
  have htoken : ∀ (t : Token) (x : List Char),
      ((∃ k ∈ t.components, k ∈ Component.timed) → t.AgreesWith d c x) ↔ t.AgreesWith d c x := by
    intro t x
    cases t <;> simp [Token.components, Component.timed, Component.civil, Component.ofDay,
      Component.ofTime, Token.AgreesWith]
  simp only [Agree, AgreeOn, htoken]

/-! ## One component -/

/-- The components of a day and a time. A timestamp is not negative. -/
def Day.at (d : Day) (c : TimeOfDay) : Reading :=
  { c.reading with
    year := d.reading.year
    yearOfCentury := d.reading.yearOfCentury
    month := d.reading.month
    day := d.reading.day
    weekday := d.reading.weekday
    timestamp := if 0 ≤ timestamp d c then some (timestamp d c).toNat else none }

theorem Day.timestamp_at_eq_some_iff {d : Day} {c : TimeOfDay} {n : Nat} :
    (d.at c).timestamp = some n ↔ timestamp d c = n := by
  rw [Day.at, Option.ite_none_right_eq_some, Option.some_inj]
  omega

/-- Whether a reading has a component of another one, if that has it. -/
def Reading.KeepsAt (r z : Reading) : Component → Prop
  | .year => Keeps r.year z.year
  | .yearOfCentury => Keeps r.yearOfCentury z.yearOfCentury
  | .month => Keeps r.month z.month
  | .day => Keeps r.day z.day
  | .weekday => Keeps r.weekday z.weekday
  | .afternoon => Keeps r.afternoon z.afternoon
  | .clockHour => Keeps r.clockHour z.clockHour
  | .minute => Keeps r.minute z.minute
  | .second => Keeps r.second z.second
  | .nanosecond => Keeps r.nanosecond z.nanosecond
  | .timestamp => Keeps r.timestamp z.timestamp
  | .offset => Keeps r.offset z.offset

namespace Reading

variable {r p q z : Reading}

theorem keepsAt_merge_iff (h : r.merge p = some q) (k : Component) :
    q.KeepsAt z k ↔ r.KeepsAt z k ∧ p.KeepsAt z k := by
  have hj := merge_eq_some_iff.mp h
  cases k with
  | year => exact keeps_join_iff hj.year
  | yearOfCentury => exact keeps_join_iff hj.yearOfCentury
  | month => exact keeps_join_iff hj.month
  | day => exact keeps_join_iff hj.day
  | weekday => exact keeps_join_iff hj.weekday
  | afternoon => exact keeps_join_iff hj.afternoon
  | clockHour => exact keeps_join_iff hj.clockHour
  | minute => exact keeps_join_iff hj.minute
  | second => exact keeps_join_iff hj.second
  | nanosecond => exact keeps_join_iff hj.nanosecond
  | timestamp => exact keeps_join_iff hj.timestamp
  | offset => exact keeps_join_iff hj.offset

theorem keepsAt_empty (z : Reading) (k : Component) : KeepsAt {} z k := by
  cases k <;> exact keeps_none _

theorem keepsAt_of_not_has {k : Component} (h : r.has k = false) : r.KeepsAt z k := by
  cases k <;> intro x hx <;> simp [has, hx] at h

theorem le_at_iff {d : Day} {c : TimeOfDay} : r ≤ d.at c ↔
    Keeps r.year (some d.year) ∧ Keeps r.yearOfCentury (some (d.year % 100).toNat) ∧
      Keeps r.month (some d.month) ∧ Keeps r.day (some d.day) ∧
      Keeps r.weekday (some d.weekday) ∧ Keeps r.afternoon (some (decide (12 ≤ c.hour))) ∧
      Keeps r.clockHour (some (c.hour % 12)) ∧ Keeps r.minute (some c.minute) ∧
      Keeps r.second (some c.second) ∧ Keeps r.nanosecond (some c.nanosecond) ∧
      Keeps r.timestamp (d.at c).timestamp ∧ Keeps r.offset none := le_iff

theorem le_iff_keepsAt : r ≤ z ↔ ∀ k, r.KeepsAt z k := by
  constructor
  · intro h k
    cases k with
    | year => exact h.year
    | yearOfCentury => exact h.yearOfCentury
    | month => exact h.month
    | day => exact h.day
    | weekday => exact h.weekday
    | afternoon => exact h.afternoon
    | clockHour => exact h.clockHour
    | minute => exact h.minute
    | second => exact h.second
    | nanosecond => exact h.nanosecond
    | timestamp => exact h.timestamp
    | offset => exact h.offset
  · intro h
    exact le_iff.mpr ⟨h .year, h .yearOfCentury, h .month, h .day, h .weekday, h .afternoon,
      h .clockHour, h .minute, h .second, h .nanosecond, h .timestamp, h .offset⟩

end Reading

/-! ## One token -/

section Token

variable {n lo hi width : Nat} {s rest : List Char}

theorem dropBlank_append {bs u : List Char} (hb : ∀ c ∈ bs, isBlank c = true) :
    dropBlank (bs ++ u) = dropBlank u :=
  List.dropWhile_append_of_pos hb

theorem dropBlank_of_isDigit {ds : List Char} (hd : ∀ c ∈ ds, c.isDigit = true) :
    dropBlank ds = ds := by
  cases ds with
  | nil => rfl
  | cons c ds => exact dropBlank_cons_of_not_blank (isBlank_of_isDigit (hd c List.mem_cons_self))

theorem numberIn_append {bs ds : List Char} (hb : ∀ c ∈ bs, isBlank c = true)
    (hd : ∀ c ∈ ds, c.isDigit = true) : numberIn (bs ++ ds) = ofDigits ds := by
  rw [numberIn, dropBlank_append hb, dropBlank_of_isDigit hd]

theorem exists_numberIn_of_takeNumberIn (h : takeNumberIn lo hi width s = some (n, rest)) :
    ∃ x, s = x ++ rest ∧ numberIn x = n := by
  obtain ⟨⟨m, r⟩, hm, h⟩ := Option.bind_eq_some_iff.mp h
  rw [Option.ite_none_right_eq_some] at h
  cases h.2
  obtain ⟨bs, hb, hs⟩ := exists_blanks_append_dropBlank s
  obtain ⟨ds, hds, hd, hn, -⟩ := exists_of_takeNumber hm
  refine ⟨bs ++ ds, ?_, (numberIn_append hb hd.isDigit).trans hn⟩
  rw [List.append_assoc, ← hds]
  exact hs

theorem exists_numberIn_of_takeFixedNumber (h : takeFixedNumber width s = some (n, rest)) :
    ∃ x, s = x ++ rest ∧ numberIn x = n := by
  obtain ⟨ds, hs, hd, hn⟩ := exists_of_takeFixedNumber h
  exact ⟨ds, hs, by rw [numberIn, dropBlank_of_isDigit hd.isDigit, hn]⟩

theorem exists_yearIn_of_takeYear {y : Int} (h : takeYear s = some (y, rest)) :
    ∃ x, s = x ++ rest ∧ yearIn x = y := by
  obtain ⟨bs, u, ds, rfl, hb, hyear⟩ := exists_of_takeYear h
  refine ⟨bs ++ u ++ ds, rfl, ?_⟩
  rw [List.append_assoc, yearIn, dropBlank_append hb]
  rcases hyear with ⟨rfl, hd, -, rfl⟩ | ⟨rfl, -, rfl⟩ | ⟨rfl, -, rfl⟩
  · obtain ⟨c, ds, rfl⟩ := List.exists_cons_of_ne_nil (hd.ne_nil (Nat.le_refl 1))
    have hc := hd.isDigit c List.mem_cons_self
    rw [List.nil_append, dropBlank_of_isDigit hd.isDigit]
    split
    · next heq =>
      cases heq
      cases hc
    · next heq =>
      cases heq
      cases hc
    · rfl
  · rfl
  · rfl

/-- A name is known by its first three letters. -/
theorem exists_abbreviates_of_takeName {full : Bool} {names : List String}
    (hlen : ∀ name ∈ names, (shortName name).length = 3)
    (h : takeName full names s = some (n, rest)) :
    ∃ x, s = x ++ rest ∧ Abbreviates names n (x.take 3) := by
  induction names generalizing n with
  | nil => cases h
  | cons name names ih =>
    rw [List.forall_mem_cons] at hlen
    rw [takeName] at h
    split at h
    · obtain ⟨⟨m, r⟩, hm, hr⟩ := Option.map_eq_some_iff.mp h
      cases hr
      exact ih hlen.2 hm
    · next r hr =>
      obtain ⟨u, rfl, hu⟩ := dropWord?_eq_some hr
      have hthree : u.length = 3 := hu.length_eq.symm.trans hlen.1
      have htake : ∀ v, (u ++ v).take 3 = u := fun v => List.take_left' hthree
      split at h
      · cases hd : dropWord? (name.toList.drop 3) r with
        | none =>
          rw [hd] at h
          cases h
          exact ⟨u, rfl, name, rfl, by rwa [← List.append_nil u, htake]⟩
        | some r' =>
          rw [hd] at h
          cases h
          obtain ⟨v, rfl, -⟩ := dropWord?_eq_some hd
          exact ⟨u ++ v, by simp, name, rfl, by rwa [htake]⟩
      · cases h
        exact ⟨u, rfl, name, rfl, by rwa [← List.append_nil u, htake]⟩

theorem Abbreviable.abbreviates_iff_eq {names : List String} (hn : Abbreviable names) {i : Nat}
    {u : List Char} (h : Abbreviates names n u) : Abbreviates names i u ↔ i = n := by
  constructor
  · intro hi
    exact Option.some.inj ((hn.abbreviates_iff.mp hi).2.symm.trans (hn.abbreviates_iff.mp h).2)
  · rintro rfl
    exact h

theorem meridiem_iff {b : Bool} {c : TimeOfDay} {u : List Char}
    (h : SameLetters (if b then ['p', 'm'] else ['a', 'm']) u) :
    SameLetters (if c.hour < 12 then ['a', 'm'] else ['p', 'm']) u ↔ decide (12 ≤ c.hour) = b := by
  have hne : ¬SameLetters ['a', 'm'] ['p', 'm'] := by decide
  have hdisj : SameLetters ['a', 'm'] u → ¬SameLetters ['p', 'm'] u := fun ha hp =>
    hne (ha.trans hp.symm)
  cases b with
  | false =>
    have ha : SameLetters ['a', 'm'] u := h
    by_cases hc : c.hour < 12
    · simp [hc, ha]
    · simp [hc, hdisj ha, Nat.not_lt.mp hc]
  | true =>
    have hp : SameLetters ['p', 'm'] u := h
    have ha : ¬SameLetters ['a', 'm'] u := fun ha => hdisj ha hp
    by_cases hc : c.hour < 12
    · simp [hc, ha]
    · simp [hc, hp, Nat.not_lt.mp hc]

/-- What a token takes is a part of a day and a time just if its text agrees with them. -/
theorem Token.exists_of_take {t : Token} {part : Reading} (h : t.take s = some (part, rest)) :
    ∃ x, s = x ++ rest ∧ (t.components ⊆ Component.timed →
      ∀ d c, t.AgreesWith d c x ↔ part ≤ d.at c) := by
  cases t <;> obtain ⟨⟨n, u⟩, hn, hu⟩ := Option.map_eq_some_iff.mp h <;> cases hu
  case year =>
    obtain ⟨x, hs, hx⟩ := exists_yearIn_of_takeYear hn
    exact ⟨x, hs, fun _ d c => by simp [AgreesWith, Reading.le_at_iff, hx, eq_comm]⟩
  case yearOfCentury =>
    obtain ⟨x, hs, hx⟩ := exists_numberIn_of_takeNumberIn hn
    refine ⟨x, hs, fun _ d c => ?_⟩
    simp only [AgreesWith, Reading.le_at_iff, hx, keeps_none, keeps_some_iff, Option.some_inj,
      true_and, and_true]
    omega
  case hour =>
    obtain ⟨x, hs, hx⟩ := exists_numberIn_of_takeNumberIn hn
    have hle := (takeNumberIn_mem hn).2
    refine ⟨x, hs, fun _ d c => ?_⟩
    have hlt := c.hour_lt
    simp only [AgreesWith, Reading.le_at_iff, hx, keeps_none, keeps_some_iff, Option.some_inj,
      decide_eq_decide, true_and, and_true]
    omega
  case meridiem =>
    obtain ⟨x, hs, hx⟩ := exists_of_takeMeridiem hn
    refine ⟨x, hs, fun _ d c => ?_⟩
    simp [AgreesWith, Reading.le_at_iff, meridiem_iff hx]
  case weekday =>
    obtain ⟨x, hs, hx⟩ := exists_abbreviates_of_takeName abbreviable_weekdayNames.length hn
    refine ⟨x, hs, fun _ d c => ?_⟩
    simp [AgreesWith, Reading.le_at_iff, abbreviable_weekdayNames.abbreviates_iff_eq hx]
  case monthName =>
    obtain ⟨x, hs, hx⟩ := exists_abbreviates_of_takeName abbreviable_monthNames.length hn
    refine ⟨x, hs, fun _ d c => ?_⟩
    have hmonth := (Calendar.month_mem_of_hasDate d.hasDate).1
    simp only [AgreesWith, Reading.le_at_iff, abbreviable_monthNames.abbreviates_iff_eq hx,
      keeps_none, keeps_some_iff, Option.some_inj, true_and, and_true]
    omega
  case milliseconds | microseconds =>
    obtain ⟨x, hs, hx⟩ := exists_numberIn_of_takeFixedNumber hn
    exact ⟨x, hs, fun _ d c => by simp [AgreesWith, Reading.le_at_iff, hx, eq_comm]⟩
  case timestamp =>
    obtain ⟨x, hs, hx⟩ := exists_numberIn_of_takeNumberIn hn
    refine ⟨x, hs, fun _ d c => ?_⟩
    rw [AgreesWith, hx, eq_comm, ← Day.timestamp_at_eq_some_iff]
    simp [Reading.le_at_iff]
  case offset =>
    obtain ⟨x, hs, -⟩ := Token.exists_takes_of_take h (by simp)
    exact ⟨x, hs, fun htimed => absurd (htimed List.mem_cons_self) (by decide)⟩
  all_goals
    obtain ⟨x, hs, hx⟩ := exists_numberIn_of_takeNumberIn hn
    exact ⟨x, hs, fun _ d c => by simp [AgreesWith, Reading.le_at_iff, hx, eq_comm]⟩

end Token

/-! ## A whole value -/

/-- Components of days and times, with both components of an hour or with neither. -/
structure IsTimed (cs : List Component) : Prop where
  subset : cs ⊆ Component.timed
  hour : .afternoon ∈ cs ↔ .clockHour ∈ cs

theorem IsTimed.components_subset {cs : List Component} (h : IsTimed cs) {t : Token}
    {k : Component} (hk : k ∈ t.components) (hmem : k ∈ cs) : t.components ⊆ cs := by
  have hhour := h.hour
  cases t <;> simp_all [Token.components]
  rcases hk with rfl | rfl <;> simp_all

/-- Of a token's text only the components in question count. -/
theorem IsTimed.agreesWith_iff {cs : List Component} (h : IsTimed cs) {t : Token} {part : Reading}
    {s rest x : List Char} {d : Day} {c : TimeOfDay} (htake : t.take s = some (part, rest))
    (hx : t.components ⊆ Component.timed →
      (t.AgreesWith d c x ↔ part ≤ d.at c)) :
    ((∃ k ∈ t.components, k ∈ cs) → t.AgreesWith d c x) ↔
      ∀ k ∈ cs, part.KeepsAt (d.at c) k := by
  have hfree : ∀ k ∉ t.components, part.KeepsAt (d.at c) k := fun k hk =>
    Reading.keepsAt_of_not_has (by rw [Token.has_take htake, decide_eq_false hk])
  by_cases hmeet : ∃ k ∈ t.components, k ∈ cs
  · obtain ⟨k, hk, hmem⟩ := hmeet
    have hsub := h.components_subset hk hmem
    rw [hx fun _ hk => h.subset (hsub hk), Reading.le_iff_keepsAt]
    constructor
    · exact fun hall j _ => hall ⟨k, hk, hmem⟩ j
    · intro hall _ j
      by_cases hj : j ∈ t.components
      · exact hall j (hsub hj)
      · exact hfree j hj
  · refine ⟨fun _ k hmem => hfree k fun hk => hmeet ⟨k, hk, hmem⟩, fun _ hmeet' => ?_⟩
    exact absurd hmeet' hmeet

/-- What a piece leaves does not depend on what was read before. -/
theorem Piece.exists_read_empty {p : Piece} {r r' : Reading} {s rest : List Char}
    (h : p.read r s = some (r', rest)) : ∃ q, p.read {} s = some (q, rest) := by
  cases p with
  | literal c =>
    obtain rfl := Piece.read_literal h
    refine ⟨{}, ?_⟩
    dsimp only [read] at h ⊢
    split at h
    · next hc =>
      cases h
      rw [if_pos hc]
    · next hc =>
      rw [if_neg hc]
      split at h
      · cases h
      · rw [Option.ite_none_right_eq_some] at h
        obtain ⟨hd, heq⟩ := h
        cases heq
        exact if_pos hd
  | token t =>
    obtain ⟨part, htake, -⟩ := Token.read_eq_some_iff.mp h
    obtain ⟨q, hq⟩ := Reading.exists_merge (Reading.empty_le part) (Reading.le_refl part)
    exact ⟨q, Token.read_eq_some_iff.mpr ⟨part, htake, hq⟩⟩

/-- What one piece adds to a reading is what its text says. -/
theorem Piece.exists_of_read {p : Piece} {r r' : Reading} {s rest : List Char}
    (h : p.read r s = some (r', rest)) :
    ∃ x, s = x ++ rest ∧ ∀ cs, IsTimed cs → ∀ d c,
      (∀ k ∈ cs, r'.KeepsAt (d.at c) k) ↔ (∀ k ∈ cs, r.KeepsAt (d.at c) k) ∧
        ∀ t, p = token t → (∃ k ∈ t.components, k ∈ cs) → t.AgreesWith d c x := by
  cases p with
  | literal c =>
    obtain rfl := Piece.read_literal h
    obtain ⟨x, hs, -⟩ := Piece.exists_takes_of_read h (by simp)
    exact ⟨x, hs, fun cs _ d c => by simp⟩
  | token t =>
    obtain ⟨part, htake, hmerge⟩ := Token.read_eq_some_iff.mp h
    obtain ⟨x, hs, hx⟩ := Token.exists_of_take htake
    refine ⟨x, hs, fun cs hcs d c => ?_⟩
    have hiff := hcs.agreesWith_iff htake fun hsub => hx hsub d c
    simp only [token.injEq, forall_eq', hiff, Reading.keepsAt_merge_iff hmerge, forall_and]

/-- The texts of a value say what the value is read as. -/
theorem exists_taken_of_ofPieces {ps : List Piece} {r q : Reading} {s : List Char}
    (h : Reading.ofPieces ps r s = some q) :
    ∃ xs, xs.flatten = s ∧ Taken ps xs ∧ ∀ cs, IsTimed cs → ∀ d c,
      (∀ k ∈ cs, q.KeepsAt (d.at c) k) ↔
        (∀ k ∈ cs, r.KeepsAt (d.at c) k) ∧ AgreeOn cs d c ps xs := by
  induction ps generalizing r s with
  | nil =>
    rw [Reading.ofPieces, Option.ite_none_right_eq_some, List.isEmpty_iff] at h
    obtain ⟨rfl, heq⟩ := h
    cases heq
    exact ⟨[], rfl, .nil, fun cs _ d c => by simp [AgreeOn]⟩
  | cons p ps ih =>
    obtain ⟨⟨r', rest⟩, hread, hrest⟩ := Option.bind_eq_some_iff.mp h
    obtain ⟨x, rfl, hx⟩ := Piece.exists_of_read hread
    obtain ⟨q', hq'⟩ := Piece.exists_read_empty hread
    obtain ⟨xs, rfl, htaken, hxs⟩ := ih hrest
    refine ⟨x :: xs, rfl, .cons hq' htaken, fun cs hcs d c => ?_⟩
    rw [hxs cs hcs d c, hx cs hcs d c, AgreeOn, AgreeOn, List.forall₂_cons, and_assoc]

end FormCheck.DatePattern
