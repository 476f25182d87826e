import FormCheck.DatePattern.Acceptance
import FormCheck.Proofs.DatePattern.Merge

/-!
# The components that a pattern takes

A token takes one component, or the two that an hour of the day has. What is read along a pattern
has the components of its tokens and no others, so that the pattern tells which components the
checks of a day and a time find.

## Main definitions

* `Component`: the names of the components.
* `Token.components`, `Takes`: the components of tokens and patterns.
* `Collects`: the readings that arise along a pattern, whatever the value.

## Main results

* `has_of_read?_iff`: a reading has the components that its pattern takes.
* `hasDate_iff_takes`, `hasTime_iff_takes`: which components determine a day and a time.
* `isRealTime_iff_takes`: a time is real unless a fraction of a second lacks its second.
-/

namespace FormCheck.DatePattern

inductive Component where
  | year
  | yearOfCentury
  | month
  | day
  | weekday
  | afternoon
  | clockHour
  | minute
  | second
  | nanosecond
  | timestamp
  | offset
deriving DecidableEq, Repr

def Token.components : Token → List Component
  | day _ => [.day]
  | month _ => [.month]
  | year => [.year]
  | yearOfCentury => [.yearOfCentury]
  | hour _ => [.afternoon, .clockHour]
  | clockHour _ => [.clockHour]
  | minute => [.minute]
  | second => [.second]
  | meridiem => [.afternoon]
  | weekday _ => [.weekday]
  | monthName _ => [.month]
  | timestamp => [.timestamp]
  | milliseconds => [.nanosecond]
  | microseconds => [.nanosecond]
  | offset _ => [.offset]

/-- Whether one of the pieces is a token of the component. -/
def Takes (ps : List Piece) (c : Component) : Prop := ∃ t, .token t ∈ ps ∧ c ∈ t.components

/-- Whether a reading has a component. -/
def Reading.has (r : Reading) : Component → Bool
  | .year => r.year.isSome
  | .yearOfCentury => r.yearOfCentury.isSome
  | .month => r.month.isSome
  | .day => r.day.isSome
  | .weekday => r.weekday.isSome
  | .afternoon => r.afternoon.isSome
  | .clockHour => r.clockHour.isSome
  | .minute => r.minute.isSome
  | .second => r.second.isSome
  | .nanosecond => r.nanosecond.isSome
  | .timestamp => r.timestamp.isSome
  | .offset => r.offset.isSome

/-! ## One token -/

/-- What a token takes on its own has the components of the token. -/
theorem Token.has_take {t : Token} {s rest : List Char} {p : Reading}
    (h : t.take s = some (p, rest)) (c : Component) : p.has c = decide (c ∈ t.components) := by
  cases t <;> obtain ⟨a, -, ha⟩ := Option.map_eq_some_iff.mp h <;> cases ha <;> cases c <;> rfl

theorem isSome_join {α : Type} [DecidableEq α] {a b c : Option α} (h : join a b = some c) :
    c.isSome = (a.isSome || b.isSome) := by
  cases b with
  | none =>
    cases h
    simp
  | some x =>
    obtain ⟨-, rfl⟩ := settle_eq_some_iff.mp h
    simp

theorem Reading.has_merge {r p q : Reading} (h : r.merge p = some q) (c : Component) :
    q.has c = (r.has c || p.has c) := by
  have hj := merge_eq_some_iff.mp h
  cases c with
  | year => exact isSome_join hj.year
  | yearOfCentury => exact isSome_join hj.yearOfCentury
  | month => exact isSome_join hj.month
  | day => exact isSome_join hj.day
  | weekday => exact isSome_join hj.weekday
  | afternoon => exact isSome_join hj.afternoon
  | clockHour => exact isSome_join hj.clockHour
  | minute => exact isSome_join hj.minute
  | second => exact isSome_join hj.second
  | nanosecond => exact isSome_join hj.nanosecond
  | timestamp => exact isSome_join hj.timestamp
  | offset => exact isSome_join hj.offset

theorem isSome_of_keeps {α : Type} {a z : Option α} (h : Keeps a z) (ha : a.isSome = true) :
    z.isSome = true := by
  obtain ⟨x, hx⟩ := Option.isSome_iff_exists.mp ha
  rw [h x hx, Option.isSome_some]

theorem Reading.has_of_le {r q : Reading} (h : r ≤ q) {c : Component} (hc : r.has c = true) :
    q.has c = true := by
  cases c with
  | year => exact isSome_of_keeps h.year hc
  | yearOfCentury => exact isSome_of_keeps h.yearOfCentury hc
  | month => exact isSome_of_keeps h.month hc
  | day => exact isSome_of_keeps h.day hc
  | weekday => exact isSome_of_keeps h.weekday hc
  | afternoon => exact isSome_of_keeps h.afternoon hc
  | clockHour => exact isSome_of_keeps h.clockHour hc
  | minute => exact isSome_of_keeps h.minute hc
  | second => exact isSome_of_keeps h.second hc
  | nanosecond => exact isSome_of_keeps h.nanosecond hc
  | timestamp => exact isSome_of_keeps h.timestamp hc
  | offset => exact isSome_of_keeps h.offset hc

/-- A step of the reader adds what the token takes. -/
theorem Token.read_eq_some_iff {t : Token} {r q : Reading} {s rest : List Char} :
    t.read r s = some (q, rest) ↔ ∃ p, t.take s = some (p, rest) ∧ r.merge p = some q := by
  rw [t.read_eq_merge, Option.bind_eq_some_iff]
  constructor
  · rintro ⟨⟨p, rest'⟩, htake, hq⟩
    obtain ⟨q', hmerge, heq⟩ := Option.map_eq_some_iff.mp hq
    cases heq
    exact ⟨p, htake, hmerge⟩
  · rintro ⟨p, htake, hmerge⟩
    exact ⟨(p, rest), htake, by rw [hmerge, Option.map_some]⟩

/-! ## A whole pattern -/

/-- The readings that arise along a pattern: each token adds what it takes from some text. -/
inductive Collects : Reading → List Piece → Reading → Prop where
  | nil {r} : Collects r [] r
  | literal {r c ps q} (h : Collects r ps q) : Collects r (.literal c :: ps) q
  | token {r t s rest p r' ps q} (htake : t.take s = some (p, rest)) (hmerge : r.merge p = some r')
      (h : Collects r' ps q) : Collects r (.token t :: ps) q

theorem Piece.read_literal {c : Char} {r r' : Reading} {s rest : List Char}
    (h : (Piece.literal c).read r s = some (r', rest)) : r' = r := by
  dsimp only [Piece.read] at h
  split at h
  · cases h
    rfl
  · split at h
    · cases h
    · rw [Option.ite_none_right_eq_some] at h
      cases h.2
      rfl

theorem collects_of_ofPieces {ps : List Piece} {r q : Reading} {s : List Char}
    (h : Reading.ofPieces ps r s = some q) : Collects r ps q := by
  induction ps generalizing r s with
  | nil =>
    rw [Reading.ofPieces, Option.ite_none_right_eq_some] at h
    cases h.2
    exact .nil
  | cons p ps ih =>
    obtain ⟨⟨r', rest⟩, hread, hrest⟩ := Option.bind_eq_some_iff.mp h
    cases p with
    | literal c =>
      obtain rfl := Piece.read_literal hread
      exact .literal (ih hrest)
    | token t =>
      obtain ⟨p, htake, hmerge⟩ := Token.read_eq_some_iff.mp hread
      exact .token htake hmerge (ih hrest)

theorem takes_literal_cons {c : Char} {ps : List Piece} {k : Component} :
    Takes (.literal c :: ps) k ↔ Takes ps k := by simp [Takes]

theorem takes_token_cons {t : Token} {ps : List Piece} {k : Component} :
    Takes (.token t :: ps) k ↔ k ∈ t.components ∨ Takes ps k := by
  simp [Takes, or_and_right, exists_or]

theorem Collects.has_iff {ps : List Piece} {r q : Reading} (h : Collects r ps q)
    (c : Component) : q.has c = true ↔ r.has c = true ∨ Takes ps c := by
  induction h with
  | nil => simp [Takes]
  | literal _ ih => rw [ih, takes_literal_cons]
  | token htake hmerge _ ih =>
    rw [ih, Reading.has_merge hmerge, Token.has_take htake, takes_token_cons, Bool.or_eq_true,
      decide_eq_true_eq, or_assoc]

/-- A reading has the components of the tokens that it was read along. -/
theorem has_of_read?_iff {p : DatePattern} {s : List Char} {q : Reading}
    (h : p.read? s = some q) (c : Component) : q.has c = true ↔ Takes p.pieces c := by
  have hempty : ({} : Reading).has c = false := by cases c <;> rfl
  rw [(collects_of_ofPieces h).has_iff, hempty]
  simp

theorem exists_read?_of_accepts {p : DatePattern} {value : String}
    (h : p.accepts value = true) :
    ∃ q, p.read? value.toList = some q ∧ p.isConsistent q = true := by
  rw [accepts, Bool.and_eq_true, Option.any_eq_true] at h
  exact h.1

/-! ## What a pattern determines -/

theorem hasToken_iff {p : DatePattern} {f : Token → Bool} :
    p.hasToken f = true ↔ ∃ t, .token t ∈ p.pieces ∧ f t = true := by
  rw [hasToken, List.any_eq_true]
  constructor
  · rintro ⟨t | c, hmem, hf⟩
    · exact ⟨t, hmem, hf⟩
    · cases hf
  · rintro ⟨t, hmem, hf⟩
    exact ⟨.token t, hmem, hf⟩

theorem isConsistent_iff {p : DatePattern} {q : Reading} : p.isConsistent q = true ↔
    (p.hasDate = true → q.isRealDate = true) ∧ (p.hasTime = true → q.isRealTime = true) := by
  rw [isConsistent]
  cases p.hasDate <;> cases p.hasTime <;> simp

theorem hasDate_iff_takes {p : DatePattern} : p.hasDate = true ↔
    (Takes p.pieces .year ∨ Takes p.pieces .yearOfCentury) ∧ Takes p.pieces .month ∧
      Takes p.pieces .day := by
  have hyear : ∀ t : Token, t.givesYear = true ↔
      Component.year ∈ t.components ∨ Component.yearOfCentury ∈ t.components := by
    intro t
    cases t <;> simp [Token.givesYear, Token.components]
  have hmonth : ∀ t : Token, t.givesMonth = true ↔ Component.month ∈ t.components := by
    intro t
    cases t <;> simp [Token.givesMonth, Token.components]
  have hday : ∀ t : Token, t.givesDay = true ↔ Component.day ∈ t.components := by
    intro t
    cases t <;> simp [Token.givesDay, Token.components]
  rw [hasDate, Bool.and_eq_true, Bool.and_eq_true, and_assoc, hasToken_iff, hasToken_iff,
    hasToken_iff]
  simp only [Takes, hyear, hmonth, hday, and_or_left, exists_or]

/-- The halves of the day and the hours on the clock face are those of hours of the day, or have
tokens of their own. -/
theorem hasTime_iff_takes {p : DatePattern} : p.hasTime = true ↔
    Takes p.pieces .minute ∧ Takes p.pieces .clockHour ∧ Takes p.pieces .afternoon := by
  have hminute : Takes p.pieces .minute ↔ p.hasToken Token.givesMinute = true := by
    have htoken : ∀ t : Token, Component.minute ∈ t.components ↔ t.givesMinute = true := by
      intro t
      cases t <;> simp [Token.givesMinute, Token.components]
    simp only [Takes, htoken, hasToken_iff]
  have hclock : Takes p.pieces .clockHour ↔
      p.hasToken Token.givesHour = true ∨ p.hasToken Token.givesClockHour = true := by
    have htoken : ∀ t : Token, Component.clockHour ∈ t.components ↔
        t.givesHour = true ∨ t.givesClockHour = true := by
      intro t
      cases t <;> simp [Token.givesHour, Token.givesClockHour, Token.components]
    simp only [Takes, htoken, and_or_left, exists_or, hasToken_iff]
  have hafternoon : Takes p.pieces .afternoon ↔
      p.hasToken Token.givesHour = true ∨ p.hasToken Token.givesMeridiem = true := by
    have htoken : ∀ t : Token, Component.afternoon ∈ t.components ↔
        t.givesHour = true ∨ t.givesMeridiem = true := by
      intro t
      cases t <;> simp [Token.givesHour, Token.givesMeridiem, Token.components]
    simp only [Takes, htoken, and_or_left, exists_or, hasToken_iff]
  rw [hminute, hclock, hafternoon, ← or_and_left, hasTime, Bool.and_eq_true, Bool.or_eq_true,
    Bool.and_eq_true]

/-- A time that a pattern determines is real if and only if a fraction of a second comes with its
second. -/
theorem isRealTime_iff_takes {p : DatePattern} {s : List Char} {q : Reading}
    (hq : p.read? s = some q) (ht : p.hasTime = true) :
    q.isRealTime = true ↔ (Takes p.pieces .nanosecond → Takes p.pieces .second) := by
  have hhas := has_of_read?_iff hq
  obtain ⟨hminute, hclock, hafternoon⟩ := hasTime_iff_takes.mp ht
  rw [← hhas] at hminute hclock hafternoon
  rw [← hhas, ← hhas]
  simp only [Reading.has] at hminute hclock hafternoon ⊢
  simp only [Reading.isRealTime, hminute, hclock, hafternoon, Bool.true_and]
  cases q.nanosecond <;> simp

end FormCheck.DatePattern
