import FormCheck.DatePattern.Acceptance
import FormCheck.Proofs.DatePattern.Alignment
import FormCheck.Proofs.DatePattern.Civil
import FormCheck.Proofs.DatePattern.Grammar

/-!
# Dates and times written along a pattern

A pattern whose tokens have a fixed width writes every date and time of four-digit years. What it
writes has the shape of the pattern, and is read back piece by piece. It is accepted unless the
pattern asks for a fraction of a second beside a time of the day, but for no second: the check of
the time then misses the second, whatever the value.

## Main definitions

* `Stamp`: a day, a time in whole milliseconds and an offset.
* `Fixed`: the patterns whose tokens have a fixed width.
* `render`: the text that a pattern writes for a stamp.
* `LacksSecond`: the patterns with a time of the day and a fraction, but no second.

## Main results

* `accepts_shape_render`: what a pattern writes has its shape.
* `Token.take_render`, `Reading.ofPieces_render`: a token and a pattern read what they write.
* `compile_accepts_render`: a pattern accepts what it writes, or nothing at all.
-/

namespace FormCheck

namespace Text

theorem isDigit_digitChar {n : Nat} (h : n < 10) : (Nat.digitChar n).isDigit = true := by
  rw [isDigit_iff, Nat.toNat_digitChar_of_lt_ten h]
  have : '0'.toNat = 48 := rfl
  omega

theorem isDigit_of_mem_lastDigits {width n : Nat} {c : Char} (h : c ∈ lastDigits width n) :
    c.isDigit = true := by
  induction width generalizing n with
  | zero => cases h
  | succ width ih =>
    rw [lastDigits, List.mem_append, List.mem_singleton] at h
    rcases h with h | rfl
    · exact ih h
    · exact isDigit_digitChar (Nat.mod_lt n (by omega))

theorem ofDigits_lastDigits {width n : Nat} (h : n < Decimal.tenPow width) :
    ofDigits (lastDigits width n) = n := by
  induction width generalizing n with
  | zero =>
    have hone : Decimal.tenPow 0 = 1 := rfl
    rw [lastDigits, ofDigits_nil]
    omega
  | succ width ih =>
    have hpow : Decimal.tenPow (width + 1) = Decimal.tenPow width * 10 := rfl
    rw [ofDigits_lastDigits_succ, ih (by omega)]
    omega

end Text

namespace DatePattern

open Text

theorem isNumber_lastDigits (width n : Nat) : IsNumber width width (lastDigits width n) where
  lo_le := (length_lastDigits width n).ge
  le_hi := (length_lastDigits width n).le
  isDigit := fun _ => isDigit_of_mem_lastDigits

/-! ## Stamps -/

/-- A date and time with a four-digit year, in whole milliseconds, and an offset from universal
time of less than a day, in minutes. -/
structure Stamp where
  day : Day
  time : TimeOfDay
  offset : Int
  year_mem : 0 ≤ day.year ∧ day.year < 10000
  whole : time.nanosecond % 1000000 = 0
  offset_mem : -1440 < offset ∧ offset < 1440

def Stamp.reading (s : Stamp) : Reading :=
  { s.time.reading with
    year := s.day.reading.year
    yearOfCentury := s.day.reading.yearOfCentury
    month := s.day.reading.month
    day := s.day.reading.day
    weekday := s.day.reading.weekday
    offset := some s.offset }

/-! ## Writing -/

/-- The tokens that are written in a fixed number of characters, all of them digits but for the
signs and colons of offsets. -/
def Token.isFixed : Token → Bool
  | day padded | month padded | hour padded => padded
  | year | minute | second | milliseconds | microseconds | offset _ => true
  | _ => false

/-- The tokens of fixed width, one by one. -/
def fixedTokens : List Token :=
  [.day true, .month true, .year, .hour true, .minute, .second, .milliseconds, .microseconds,
   .offset false, .offset true]

/-- Whether all tokens are of fixed width. -/
def Fixed (ps : List Piece) : Prop := ∀ t, Piece.token t ∈ ps → t.isFixed = true

theorem Fixed.of_cons {p : Piece} {ps : List Piece} (h : Fixed (p :: ps)) : Fixed ps :=
  fun t ht => h t (List.mem_cons_of_mem p ht)

/-- The text of an offset: the sign, hours and minutes. -/
def renderOffset (colon : Bool) (n : Int) : List Char :=
  (if n < 0 then '-' else '+') :: (lastDigits 2 (n.natAbs / 60) ++
    ((if colon then [':'] else []) ++ lastDigits 2 (n.natAbs % 60)))

def Token.render (s : Stamp) : Token → List Char
  | day _ => lastDigits 2 s.day.day
  | month _ => lastDigits 2 s.day.month
  | year => lastDigits 4 s.day.year.toNat
  | hour _ => lastDigits 2 s.time.hour
  | minute => lastDigits 2 s.time.minute
  | second => lastDigits 2 s.time.second
  | milliseconds => lastDigits 3 (s.time.nanosecond / 1000000)
  | microseconds => lastDigits 6 (s.time.nanosecond / 1000)
  | offset colon => renderOffset colon s.offset
  | _ => []

def Piece.render (s : Stamp) : Piece → List Char
  | token t => t.render s
  | literal c => [c]

def render (ps : List Piece) (s : Stamp) : String :=
  String.ofList (ps.map (Piece.render s)).flatten

/-! ## Shapes of what is written -/

theorem matches_renderOffset (colon : Bool) (n : Int) :
    Regex.Matches (Token.offset colon).shape (renderOffset colon n) := by
  have hsign : Regex.Matches Token.sign [if n < 0 then '-' else '+'] := by
    refine Regex.matches_char_iff.mpr ⟨_, CharClass.contains_oneOf.mpr ?_, rfl⟩
    split <;> decide
  have hdigits := fun k => (isSlice_times_digit_iff.mpr (isNumber_lastDigits 2 k)).1
  cases colon with
  | true =>
    have hcolon : Regex.Matches (.exactly ':') [':'] := Regex.matches_exactly_iff.mpr rfl
    exact Regex.Matches.seq hsign ((hdigits _).seq (hcolon.seq (hdigits _)))
  | false =>
    have hfour : Regex.Matches (Token.digit.times 4)
        (lastDigits 2 (n.natAbs / 60) ++ lastDigits 2 (n.natAbs % 60)) := by
      refine Regex.matches_times_char_iff.mpr ⟨by simp, ?_⟩
      intro c hc
      rcases List.mem_append.mp hc with hc | hc
      · exact isDecimalDigit_of_isDigit (isDigit_of_mem_lastDigits hc)
      · exact isDecimalDigit_of_isDigit (isDigit_of_mem_lastDigits hc)
    exact Regex.Matches.seq hsign hfour

theorem Token.matches_render {t : Token} (h : t.isFixed = true) (s : Stamp) :
    Regex.Matches t.shape (t.render s) := by
  cases t with
  | day padded | month padded | hour padded =>
    cases h
    exact (isSlice_times_digit_iff.mpr (isNumber_lastDigits 2 _)).1
  | minute | second => exact (isSlice_times_digit_iff.mpr (isNumber_lastDigits 2 _)).1
  | year => exact (isSlice_times_digit_iff.mpr (isNumber_lastDigits 4 _)).1
  | milliseconds => exact (isSlice_times_digit_iff.mpr (isNumber_lastDigits 3 _)).1
  | microseconds => exact (isSlice_times_digit_iff.mpr (isNumber_lastDigits 6 _)).1
  | offset colon => exact matches_renderOffset colon s.offset
  | _ => cases h

theorem Piece.matches_render {p : Piece} (h : ∀ t, p = token t → t.isFixed = true) (s : Stamp) :
    Regex.Matches p.shape (p.render s) := by
  cases p with
  | token t => exact Token.matches_render (h t rfl) s
  | literal c => exact Regex.matches_exactly_iff.mpr rfl

/-- What a pattern writes has its shape. -/
theorem accepts_shape_render {ps : List Piece} (h : Fixed ps) (s : Stamp) :
    (shape ⟨ps⟩).accepts (render ps s).toList = true := by
  rw [Regex.accepts_iff, shape, Regex.matches_chain_iff, render, String.toList_ofList]
  refine ⟨ps.map (Piece.render s), ?_, rfl⟩
  rw [List.forall₂_map_left_iff, List.forall₂_map_right_iff, List.forall₂_same]
  intro p hp
  exact Piece.matches_render (fun t ht => h t (ht ▸ hp)) s

/-! ## Reading what is written -/

theorem takeNumberIn_lastDigits {lo hi width n : Nat} (hn : lo ≤ n ∧ n ≤ hi)
    (hwidth : 1 ≤ width ∧ width ≤ 18) (hlt : n < Decimal.tenPow width) (rest : List Char) :
    takeNumberIn lo hi width (lastDigits width n ++ rest) = some (n, rest) := by
  have hlen := length_lastDigits width n
  rw [takeNumberIn_append (isNumber_lastDigits width n) hwidth.1 hwidth.2 (.inl hlen),
    ofDigits_lastDigits hlt, if_pos hn]

theorem takeFixedNumber_lastDigits {width n : Nat} (hlt : n < Decimal.tenPow width)
    (rest : List Char) : takeFixedNumber width (lastDigits width n ++ rest) = some (n, rest) := by
  have hlen := length_lastDigits width n
  have htake : (lastDigits width n ++ rest).take width = lastDigits width n := by
    rw [List.take_append_of_le_length hlen.ge, List.take_of_length_le hlen.le]
  have hdrop : (lastDigits width n ++ rest).drop width = rest := List.drop_left' hlen
  have hdigits : (lastDigits width n).all Char.isDigit = true :=
    List.all_eq_true.mpr fun _ => isDigit_of_mem_lastDigits
  rw [takeFixedNumber, htake, hdrop, if_pos ⟨hlen, hdigits⟩, ofDigits_lastDigits hlt]

/-- A number that is written starts with a digit. -/
theorem exists_cons_lastDigits (width n : Nat) :
    ∃ c v, lastDigits (width + 1) n = c :: v ∧ c.isDigit = true := by
  obtain ⟨c, v, hcons⟩ := List.exists_cons_of_length_eq_add_one (length_lastDigits (width + 1) n)
  have hmem : c ∈ lastDigits (width + 1) n := by
    rw [hcons]
    exact List.mem_cons_self
  exact ⟨c, v, hcons, isDigit_of_mem_lastDigits hmem⟩

theorem takeSign_renderOffset (n : Int) (s : List Char) :
    takeSign (dropBlank ((if n < 0 then '-' else '+') :: s)) =
      some (if n < 0 then -1 else 1, s) := by
  split
  · rw [dropBlank_cons_of_not_blank (by decide), takeSign]
  · rw [dropBlank_cons_of_not_blank (by decide), takeSign]

/-- The colon of an offset is left out, and nothing else. -/
theorem dropWhile_colon (colon : Bool) (n : Nat) (rest : List Char) :
    ((if colon then [':'] else []) ++ (lastDigits 2 n ++ rest)).dropWhile
        (fun c => c == ':' || isBlank c) = lastDigits 2 n ++ rest := by
  obtain ⟨c, v, hcons, hc⟩ := exists_cons_lastDigits 1 n
  have hcolon : c ≠ ':' := by
    rintro rfl
    cases hc
  rw [hcons]
  cases colon <;> simp [hcolon, isBlank_of_isDigit hc]

theorem takeOffset_renderOffset {n : Int} (hn : -1440 < n ∧ n < 1440) (colon : Bool)
    (rest : List Char) : takeOffset (renderOffset colon n ++ rest) = some (n, rest) := by
  have hhours : n.natAbs / 60 < Decimal.tenPow 2 := by
    have : Decimal.tenPow 2 = 100 := rfl
    omega
  have hminutes : n.natAbs % 60 < Decimal.tenPow 2 := by
    have : Decimal.tenPow 2 = 100 := rfl
    omega
  have hvalue : (if n < 0 then -1 else 1) * (60 * ((n.natAbs / 60 : Nat) : Int) +
      ((n.natAbs % 60 : Nat) : Int)) = n := by
    split <;> omega
  rw [renderOffset, List.cons_append, List.append_assoc, List.append_assoc, takeOffset,
    takeSign_renderOffset]
  simp only [Option.bind_eq_bind, Option.bind_some, takeFixedNumber_lastDigits hhours,
    dropWhile_colon, takeFixedNumber_lastDigits hminutes, hvalue]
  rw [if_pos (by omega)]

theorem takeYear_lastDigits {n : Nat} (hn : n < 10000) (rest : List Char) :
    takeYear (lastDigits 4 n ++ rest) = some ((n : Int), rest) := by
  rw [takeYear_append (isNumber_lastDigits 4 n), ofDigits_lastDigits hn]

theorem Stamp.le_reading_iff {s : Stamp} {r : Reading} : r ≤ s.reading ↔
    Keeps r.year (some s.day.year) ∧ Keeps r.yearOfCentury (some (s.day.year % 100).toNat) ∧
      Keeps r.month (some s.day.month) ∧ Keeps r.day (some s.day.day) ∧
      Keeps r.weekday (some s.day.weekday) ∧
      Keeps r.afternoon (some (decide (12 ≤ s.time.hour))) ∧
      Keeps r.clockHour (some (s.time.hour % 12)) ∧ Keeps r.minute (some s.time.minute) ∧
      Keeps r.second (some s.time.second) ∧ Keeps r.nanosecond (some s.time.nanosecond) ∧
      Keeps r.timestamp none ∧ Keeps r.offset (some s.offset) := Reading.le_iff

/-- A token takes what it writes, which is a part of the date and time that was written. -/
theorem Token.take_render {t : Token} (h : t.isFixed = true) (s : Stamp) (rest : List Char) :
    ∃ p, t.take (t.render s ++ rest) = some (p, rest) ∧ p ≤ s.reading := by
  have hmonth := Calendar.month_mem_of_hasDate s.day.hasDate
  have hday := Calendar.day_mem_of_hasDate s.day.hasDate
  have hhour := s.time.hour_lt
  have hminute := s.time.minute_lt
  have hsecond := s.time.second_le
  have htwo : Decimal.tenPow 2 = 100 := rfl
  cases t with
  | day padded =>
    rw [take, render, takeNumberIn_lastDigits hday (by omega) (by omega)]
    exact ⟨_, rfl, Stamp.le_reading_iff.mpr (by simp)⟩
  | month padded =>
    rw [take, render, takeNumberIn_lastDigits hmonth (by omega) (by omega)]
    exact ⟨_, rfl, Stamp.le_reading_iff.mpr (by simp)⟩
  | hour padded =>
    rw [take, render, takeNumberIn_lastDigits ⟨by omega, by omega⟩ (by omega) (by omega)]
    exact ⟨_, rfl, Stamp.le_reading_iff.mpr (by simp)⟩
  | minute | second =>
    rw [take, render, takeNumberIn_lastDigits ⟨by omega, by omega⟩ (by omega) (by omega)]
    exact ⟨_, rfl, Stamp.le_reading_iff.mpr (by simp)⟩
  | year =>
    have hyear := s.year_mem
    rw [take, render, takeYear_lastDigits (by omega)]
    exact ⟨_, rfl, Stamp.le_reading_iff.mpr (by simp [Int.toNat_of_nonneg hyear.1])⟩
  | milliseconds =>
    have hwhole := s.whole
    have hlt := s.time.nanosecond_lt
    have hpow : Decimal.tenPow 3 = 1000 := rfl
    rw [take, render, takeFixedNumber_lastDigits (by omega)]
    refine ⟨_, rfl, Stamp.le_reading_iff.mpr ?_⟩
    simp
    omega
  | microseconds =>
    have hwhole := s.whole
    have hlt := s.time.nanosecond_lt
    have hpow : Decimal.tenPow 6 = 1000000 := rfl
    rw [take, render, takeFixedNumber_lastDigits (by omega)]
    refine ⟨_, rfl, Stamp.le_reading_iff.mpr ?_⟩
    simp
    omega
  | offset colon =>
    rw [take, render, takeOffset_renderOffset s.offset_mem]
    exact ⟨_, rfl, Stamp.le_reading_iff.mpr (by simp)⟩
  | _ => cases h

theorem Token.exists_cons_render {t : Token} (h : t.isFixed = true) (s : Stamp) :
    ∃ c v, t.render s = c :: v ∧ isBlank c = false := by
  have hdigits : ∀ width n, ∃ c v, lastDigits (width + 1) n = c :: v ∧ isBlank c = false := by
    intro width n
    obtain ⟨c, v, hcons, hc⟩ := exists_cons_lastDigits width n
    exact ⟨c, v, hcons, isBlank_of_isDigit hc⟩
  cases t with
  | day | month | hour | minute | second | year | milliseconds | microseconds =>
    exact hdigits _ _
  | offset colon =>
    refine ⟨_, _, rfl, ?_⟩
    split <;> decide
  | _ => cases h

theorem forall₂_solid_render {ps : List Piece} (h : Fixed ps) (s : Stamp) :
    List.Forall₂ Piece.Solid ps (ps.map (Piece.render s)) := by
  rw [List.forall₂_map_right_iff, List.forall₂_same]
  intro p hp
  cases p with
  | token t => exact Token.exists_cons_render (h t hp) s
  | literal c => exact (rfl : [c] = [c])

/-- A pattern reads what it writes, and what it reads is a part of what it has written. -/
theorem Reading.ofPieces_render {ps : List Piece} (h : Fixed ps) (s : Stamp) {r : Reading}
    (hr : r ≤ s.reading) :
    ∃ q, ofPieces ps r (ps.map (Piece.render s)).flatten = some q ∧ q ≤ s.reading := by
  induction ps generalizing r with
  | nil => exact ⟨r, rfl, hr⟩
  | cons p ps ih =>
    have ih := @ih h.of_cons
    rw [List.map_cons]
    cases p with
    | literal c =>
      rw [Piece.render, List.flatten_cons, List.singleton_append,
        ofPieces_literal_cons (forall₂_solid_render h.of_cons s)]
      exact ih hr
    | token t =>
      obtain ⟨p, htake, hp⟩ := Token.take_render (h t List.mem_cons_self) s
        (ps.map (Piece.render s)).flatten
      have htake : t.take _ = (some p).map (·, (ps.map (Piece.render s)).flatten) := htake
      obtain ⟨r', hmerge⟩ := exists_merge hr hp
      rw [Piece.render, ofPieces_token_cons htake, Option.bind_some, hmerge, Option.bind_some]
      exact ih ((merge_le_iff hmerge).mpr ⟨hr, hp⟩)

/-! ## Accepting what is written -/

/-- Whether a pattern of fixed tokens has a time of the day and a fraction of a second, but no
second. -/
def LacksSecond (ps : List Piece) : Prop :=
  .token (.hour true) ∈ ps ∧ .token .minute ∈ ps ∧
    (.token .milliseconds ∈ ps ∨ .token .microseconds ∈ ps) ∧ .token .second ∉ ps

section

variable {ps : List Piece} {s : Stamp} {q : Reading}

theorem Token.mem_fixedTokens {t : Token} (h : t.isFixed = true) : t ∈ fixedTokens := by
  cases t <;> simp_all [isFixed, fixedTokens]

/-- The component of some fixed tokens is taken where one of them stands. -/
theorem Fixed.takes_iff (h : Fixed ps) {c : Component} {ts : List Token}
    (hc : ∀ t ∈ fixedTokens, (c ∈ t.components ↔ t ∈ ts)) :
    Takes ps c ↔ ∃ t ∈ ts, .token t ∈ ps := by
  have hc : ∀ t, .token t ∈ ps → (c ∈ t.components ↔ t ∈ ts) := fun t hmem =>
    hc t (Token.mem_fixedTokens (h t hmem))
  constructor
  · rintro ⟨t, hmem, ht⟩
    exact ⟨t, (hc t hmem).mp ht, hmem⟩
  · rintro ⟨t, ht, hmem⟩
    exact ⟨t, hmem, (hc t hmem).mpr ht⟩

theorem Fixed.hasTime_iff (h : Fixed ps) :
    hasTime ⟨ps⟩ = true ↔ .token (.hour true) ∈ ps ∧ .token .minute ∈ ps := by
  have hminute : Takes ps .minute ↔ ∃ t ∈ [.minute], .token t ∈ ps := h.takes_iff (by decide)
  have hclock : Takes ps .clockHour ↔ ∃ t ∈ [.hour true], .token t ∈ ps :=
    h.takes_iff (by decide)
  have hafternoon : Takes ps .afternoon ↔ ∃ t ∈ [.hour true], .token t ∈ ps :=
    h.takes_iff (by decide)
  rw [hasTime_iff_takes, hminute, hclock, hafternoon]
  simp [and_comm]

theorem Fixed.lacksSecond_iff (h : Fixed ps) : LacksSecond ps ↔
    hasTime ⟨ps⟩ = true ∧ ¬(Takes ps .nanosecond → Takes ps .second) := by
  have hfraction : Takes ps .nanosecond ↔ ∃ t ∈ [.milliseconds, .microseconds], .token t ∈ ps :=
    h.takes_iff (by decide)
  have hsecond : Takes ps .second ↔ ∃ t ∈ [.second], .token t ∈ ps := h.takes_iff (by decide)
  rw [h.hasTime_iff, hfraction, hsecond, LacksSecond]
  simp [and_assoc]

/-- A part of a stamp that has a year, a month and a day is real. -/
theorem isRealDate_of_le_reading (hq : q ≤ s.reading) (hy : q.year.isSome = true)
    (hm : q.month.isSome = true) (hd : q.day.isSome = true) : q.isRealDate = true := by
  obtain ⟨hyear, hcentury, hmonth, hday, hweekday, -⟩ := Stamp.le_reading_iff.mp hq
  obtain ⟨y, hy⟩ := Option.isSome_iff_exists.mp hy
  obtain ⟨m, hm⟩ := Option.isSome_iff_exists.mp hm
  obtain ⟨d, hd⟩ := Option.isSome_iff_exists.mp hd
  obtain rfl : s.day.year = y := Option.some_inj.mp (hyear y hy)
  obtain rfl : s.day.month = m := Option.some_inj.mp (hmonth m hm)
  obtain rfl : s.day.day = d := Option.some_inj.mp (hday d hd)
  have hrange := s.year_mem
  have hfull : q.fullYear? = some s.day.year := by
    cases hc : q.yearOfCentury with
    | none => rw [Reading.fullYear?, hy, hc]
    | some c =>
      have hc' : (s.day.year % 100).toNat = c := Option.some_inj.mp (hcentury c hc)
      rw [Reading.fullYear?, hy, hc]
      exact if_pos ⟨hrange.1, by omega⟩
  have hknown : Reading.isKnownYear s.day.year = true := by
    rw [Reading.isKnownYear, Bool.and_eq_true, decide_eq_true_eq, decide_eq_true_eq]
    omega
  have hreal : q.weekday.all (· == s.day.weekday) = true := by
    rw [Option.all_eq_true]
    intro w hw
    rw [beq_iff_eq]
    exact (Option.some_inj.mp (hweekday w hw)).symm
  rw [Reading.isRealDate, hfull, hm, hd]
  simp only [hknown, s.day.hasDate, Bool.true_and]
  exact hreal

theorem isConsistent_of_le_reading (h : Fixed ps) (hread : read? ⟨ps⟩ (render ps s).toList = some q)
    (hq : q ≤ s.reading) (hsecond : ¬LacksSecond ps) : isConsistent ⟨ps⟩ q = true := by
  have hhas := has_of_read?_iff hread
  refine isConsistent_iff.mpr ⟨fun hdate => ?_, fun htime => ?_⟩
  · obtain ⟨hyear, hmonth, hday⟩ := hasDate_iff_takes.mp hdate
    have hcentury : Takes ps .yearOfCentury ↔ ∃ t ∈ [], .token t ∈ ps := h.takes_iff (by decide)
    have hyear : Takes ps .year := hyear.resolve_right (by simp [hcentury])
    exact isRealDate_of_le_reading hq ((hhas .year).mpr hyear) ((hhas .month).mpr hmonth)
      ((hhas .day).mpr hday)
  · rw [isRealTime_iff_takes hread htime]
    by_contra hlacks
    exact hsecond (h.lacksSecond_iff.mpr ⟨htime, hlacks⟩)

end

/-- A pattern of fixed tokens accepts all that it writes, unless it has a time of the day and a
fraction of a second but no second. Then it accepts nothing. -/
theorem compile_accepts_render {pattern : String} {ps : List Piece}
    (hw : Written pattern.toList ps) (h : Fixed ps) :
    ∃ p, compile pattern = .ok p ∧
      (¬LacksSecond ps → ∀ s : Stamp, p.accepts (render ps s) = true) ∧
      (LacksSecond ps → ∀ value : String, p.accepts value = false) := by
  refine ⟨⟨ps⟩, compile_of_written hw, ?_, ?_⟩
  · intro hsecond s
    obtain ⟨q, hread, hq⟩ := Reading.ofPieces_render h s (Reading.empty_le _)
    have hread : read? ⟨ps⟩ (render ps s).toList = some q := by
      rwa [read?, render, String.toList_ofList]
    rw [accepts, Bool.and_eq_true, hread, Option.any_some]
    exact ⟨isConsistent_of_le_reading h hread hq hsecond, accepts_shape_render h s⟩
  · intro hsecond value
    obtain ⟨htime, hlacks⟩ := h.lacksSecond_iff.mp hsecond
    rw [Bool.eq_false_iff]
    intro haccepts
    obtain ⟨q, hread, hcons⟩ := exists_read?_of_accepts haccepts
    have hreal := (isConsistent_iff.mp hcons).2 htime
    exact hlacks ((isRealTime_iff_takes hread htime).mp hreal)

/-- Every stamp is accepted as it is written in the extended form, with milliseconds. -/
theorem compile_accepts_render_extended :
    ∃ p, compile "Y-m-d\\TH:i:s.vP" = .ok p ∧
      ∀ s : Stamp, p.accepts (render p.pieces s) = true := by
  let ps : List Piece := [.token .year, .literal '-', .token (.month true), .literal '-',
    .token (.day true), .literal 'T', .token (.hour true), .literal ':', .token .minute,
    .literal ':', .token .second, .literal '.', .token .milliseconds, .token (.offset true)]
  have hw : Written "Y-m-d\\TH:i:s.vP".toList ps := written_of_compilePieces rfl
  have hfixed : Fixed ps := by simp [Fixed, ps, Token.isFixed]
  have hsecond : ¬LacksSecond ps := by simp [LacksSecond, ps]
  obtain ⟨p, hp, haccepts, -⟩ := compile_accepts_render hw hfixed
  obtain rfl : p = ⟨ps⟩ := Except.ok.inj (hp.symm.trans (compile_of_written hw))
  exact ⟨_, hp, haccepts hsecond⟩

/-- Three in the afternoon and 123 milliseconds, on the first day of 2020. -/
def fractionStamp : Stamp where
  day := ⟨2020, 1, 1, rfl⟩
  time := ⟨15, 0, 0, 123000000, by decide, by decide, by decide, by decide⟩
  offset := 0
  year_mem := by decide
  whole := rfl
  offset_mem := by decide

/-- A fraction behind the minute is written, and not accepted. -/
theorem render_fraction_not_accepted :
    ∃ p, compile "H:i.v" = .ok p ∧ render p.pieces fractionStamp = "15:00.123" ∧
      p.accepts (render p.pieces fractionStamp) = false :=
  ⟨⟨[.token (.hour true), .literal ':', .token .minute, .literal '.', .token .milliseconds]⟩,
    rfl, by decide, by decide⟩

end DatePattern

end FormCheck
