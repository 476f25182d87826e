import FormCheck.Proofs.DatePattern.Components
import FormCheck.Proofs.DatePattern.Grammar
import FormCheck.Proofs.DatePattern.Moment

/-!
# The values that a pattern of basic tokens accepts

A value is accepted if the reader takes it and it has the shape of the pattern. Both cut it into
the same slices, and it is accepted if and only if the slices show one moment, which has to be a
day of the calendar where the pattern names a year, a month and a day.

## Main definitions

* `NamesDay`: the patterns that name a year, a month and a day.

## Main results

* `accepts_iff_exists_slices`: the slices of an accepted value, for every pattern.
* `isRealDate_iff_of_gives`, `isRealTime_of_gives`: when what is read from slices is real.
-/

namespace FormCheck.DatePattern

open Text

/-! ## Cutting a value -/

theorem Piece.IsSlice.matches {p : Piece} {u : List Char} (h : p.IsSlice u) :
    Regex.Matches p.shape u := by
  cases p with
  | token t => exact h.1
  | literal c => exact Regex.matches_exactly_iff.mpr h

/-- An accepted value falls into slices with ASCII digits only, and is read as a whole. -/
theorem accepts_iff_exists_slices {p : DatePattern} {value : String} :
    p.accepts value = true ↔
      ∃ us, us.flatten = value.toList ∧ List.Forall₂ Piece.IsSlice p.pieces us ∧
        ∃ q, Reading.ofPieces p.pieces {} us.flatten = some q ∧ p.isConsistent q = true := by
  rw [accepts, Bool.and_eq_true, Option.any_eq_true, Regex.accepts_iff, shape,
    Regex.matches_chain_iff]
  constructor
  · rintro ⟨⟨q, hq, hcons⟩, us, hus, hflat⟩
    rw [List.forall₂_map_left_iff] at hus
    rw [read?, ← hflat] at hq
    have hslices := forall₂_isSlice_of_matches hus (Reading.foreignDigits_ofPieces hq)
    exact ⟨us, hflat, hslices, q, hq, hcons⟩
  · rintro ⟨us, hflat, hslices, q, hq, hcons⟩
    refine ⟨⟨q, ?_, hcons⟩, us, ?_, hflat⟩
    · rwa [read?, ← hflat]
    · rw [List.forall₂_map_left_iff]
      exact hslices.imp fun _ _ => Piece.IsSlice.matches

theorem Piece.shows_iff {m : Moment} {p : Piece} {u : List Char}
    (hb : ∀ t, p = token t → t.isBasic = true) :
    p.Shows m u ↔ p.IsSlice u ∧ p.Gives m.reading u := by
  cases p with
  | token t => exact Token.shows_iff (hb t rfl)
  | literal c => exact (and_true _).symm.to_iff

theorem Piece.Gives.complete {p : Piece} {u : List Char} {q : Reading} (h : p.Gives q u) :
    p.Gives (Moment.complete q).reading u := by
  cases p with
  | token t =>
    obtain ⟨r, hr, hle⟩ := h
    exact ⟨r, hr, Token.part?_le_complete hr hle⟩
  | literal c => trivial

theorem forall₂_shows_iff {m : Moment} {ps : List Piece} {us : List (List Char)} (hb : Basic ps) :
    List.Forall₂ (Piece.Shows m) ps us ↔
      List.Forall₂ Piece.IsSlice ps us ∧ List.Forall₂ (Piece.Gives m.reading) ps us := by
  induction ps generalizing us with
  | nil => simp [List.forall₂_nil_left_iff]
  | cons p ps ih =>
    cases us with
    | nil => simp
    | cons u us =>
      have hp := Piece.shows_iff (m := m) (u := u) fun t ht => hb t (ht ▸ List.mem_cons_self)
      rw [List.forall₂_cons, List.forall₂_cons, List.forall₂_cons, hp, ih hb.of_cons]
      exact and_and_and_comm

/-! ## What a pattern determines -/

/-- What a slice says has the components of its token. -/
theorem Token.has_part? {t : Token} {u : List Char} {p : Reading} (h : t.part? u = some p)
    {c : Component} (hc : c ∈ t.components) : p.has c = true := by
  cases t
  case yearOfCentury | timestamp | milliseconds | microseconds | offset => cases h
  case' year => cases h
  case' meridiem => obtain ⟨b, rfl⟩ := exists_of_meridiem_part? h
  case' day | month | hour | clockHour | minute | second | weekday | monthName =>
    obtain ⟨n, -, rfl⟩ := Option.map_eq_some_iff.mp h
  all_goals
    simp only [components, List.mem_cons, List.not_mem_nil, or_false] at hc
    rcases hc with rfl | rfl <;> rfl

section Consistency

variable {p : DatePattern} {q : Reading} {us : List (List Char)}

/-- A reading above what the slices say has all components that the pattern takes. -/
theorem has_of_gives {ps : List Piece} {c : Component}
    (h : List.Forall₂ (Piece.Gives q) ps us) (hc : Takes ps c) : q.has c = true := by
  obtain ⟨t, ht, hct⟩ := hc
  induction h with
  | nil => cases ht
  | cons hp _ ih =>
    rcases List.mem_cons.mp ht with rfl | ht
    · obtain ⟨r, hr, hle⟩ := hp
      exact Reading.has_of_le hle (Token.has_part? hr hct)
    · exact ih ht

theorem isRealTime_of_gives (h : List.Forall₂ (Piece.Gives q) p.pieces us)
    (hn : q.nanosecond = none) (ht : p.hasTime = true) : q.isRealTime = true := by
  obtain ⟨hminute, hclock, hafternoon⟩ := hasTime_iff_takes.mp ht
  have hminute : q.minute.isSome = true := has_of_gives h hminute
  have hclock : q.clockHour.isSome = true := has_of_gives h hclock
  have hafternoon : q.afternoon.isSome = true := has_of_gives h hafternoon
  simp [Reading.isRealTime, hafternoon, hclock, hminute, hn]

/-- Where the pattern determines a day, a reading below a moment has the moment's day. -/
theorem eq_some_of_gives {m : Moment} (h : List.Forall₂ (Piece.Gives q) p.pieces us)
    (hq : q ≤ m.reading) (hd : p.hasDate = true) :
    q.year = some m.year ∧ q.month = some m.month ∧ q.day = some m.day := by
  obtain ⟨hqy, hqc, hqm, hqd, -⟩ := Moment.le_reading_iff.mp hq
  obtain ⟨hyear, hmonth, hday⟩ := hasDate_iff_takes.mp hd
  have hcentury : ¬Takes p.pieces .yearOfCentury := fun hc => by
    simpa [Reading.has, keeps_none_iff.mp hqc] using has_of_gives h hc
  obtain ⟨y, hy⟩ := Option.isSome_iff_exists.mp (has_of_gives h (hyear.resolve_right hcentury))
  obtain ⟨n, hm⟩ := Option.isSome_iff_exists.mp (has_of_gives h hmonth)
  obtain ⟨d, hd⟩ := Option.isSome_iff_exists.mp (has_of_gives h hday)
  exact ⟨hy.trans (hqy y hy).symm, hm.trans (hqm n hm).symm, hd.trans (hqd d hd).symm⟩

/-- Such a reading is real if the moment's day is, and the weekday that it has is right. -/
theorem isRealDate_iff_of_gives {m : Moment} (h : List.Forall₂ (Piece.Gives q) p.pieces us)
    (hq : q ≤ m.reading) (hd : p.hasDate = true) :
    q.isRealDate = true ↔ Reading.isKnownYear m.year = true ∧
      Calendar.hasDate m.year m.month m.day = true ∧
      ∀ w, q.weekday = some w → w = Calendar.weekday m.year m.month m.day := by
  obtain ⟨hy, hm, hd⟩ := eq_some_of_gives h hq hd
  obtain ⟨-, hcentury, -⟩ := Moment.le_reading_iff.mp hq
  have hyear : q.fullYear? = some m.year := by
    rw [Reading.fullYear?, hy, keeps_none_iff.mp hcentury]
  simp only [Reading.isRealDate, hyear, hm, hd, Bool.and_eq_true, Option.all_eq_true, beq_iff_eq,
    and_assoc]

/-- The moment that completes a real reading is real. -/
theorem isReal_complete (h : List.Forall₂ (Piece.Gives q) p.pieces us)
    (hq : q ≤ (Moment.complete q).reading) (hd : p.hasDate = true) (hreal : q.isRealDate = true) :
    (Moment.complete q).IsReal := by
  obtain ⟨-, hdate, hweekday⟩ := (isRealDate_iff_of_gives h hq hd).mp hreal
  refine ⟨hdate, ?_⟩
  cases hw : q.weekday with
  | none =>
    obtain ⟨hy, hm, hd⟩ := eq_some_of_gives h hq hd
    exact Moment.weekday_complete hy hm hd hw
  | some w =>
    obtain ⟨-, -, -, -, hqw, -⟩ := Moment.le_reading_iff.mp hq
    have : (Moment.complete q).weekday = w := by simpa using hqw w hw
    rw [this]
    exact hweekday w hw

end Consistency

/-- Whether a pattern of basic tokens names a year, a month and a day. -/
def NamesDay (ps : List Piece) : Prop :=
  .token .year ∈ ps ∧ (∃ b, .token (.month b) ∈ ps ∨ .token (.monthName b) ∈ ps) ∧
    ∃ b, .token (.day b) ∈ ps

theorem hasDate_iff_namesDay {ps : List Piece} (hb : Basic ps) :
    hasDate ⟨ps⟩ = true ↔ NamesDay ps := by
  simp only [hasDate, Bool.and_eq_true, hasToken_iff]
  constructor
  · rintro ⟨⟨⟨ty, hy, hty⟩, tm, hm, htm⟩, td, hd, htd⟩
    refine ⟨?_, ?_, ?_⟩
    · cases ty with
      | year => exact hy
      | yearOfCentury => cases hb _ hy
      | _ => cases hty
    · cases tm with
      | month b => exact ⟨b, .inl hm⟩
      | monthName b => exact ⟨b, .inr hm⟩
      | _ => cases htm
    · cases td with
      | day b => exact ⟨b, hd⟩
      | _ => cases htd
  · rintro ⟨hy, ⟨b, hm⟩, c, hd⟩
    refine ⟨⟨⟨_, hy, rfl⟩, ?_⟩, _, hd, rfl⟩
    rcases hm with hm | hm
    · exact ⟨_, hm, rfl⟩
    · exact ⟨_, hm, rfl⟩

/-- Four digits write a year that the calendar is kept for. -/
theorem isKnownYear_of_shows {m : Moment} {ps : List Piece} {us : List (List Char)}
    (h : List.Forall₂ (Piece.Shows m) ps us) (hy : .token .year ∈ ps) :
    Reading.isKnownYear m.year = true := by
  induction h with
  | nil => cases hy
  | @cons p u ps us hp _ ih =>
    rcases List.mem_cons.mp hy with rfl | hy
    · obtain ⟨hu, hyear⟩ : IsNumber 4 4 u ∧ (ofDigits u : Int) = m.year := hp
      have hlt : ofDigits u < 10000 := hu.ofDigits_lt
      rw [← hyear, Reading.isKnownYear, Bool.and_eq_true, decide_eq_true_eq, decide_eq_true_eq]
      omega
    · exact ih hy

/-! ## Accepted values -/

section Shown

variable {ps : List Piece} {us : List (List Char)} {m : Moment} {q : Reading}

/-- What is read from slices that show a moment is consistent if the moment is real. -/
theorem isConsistent_of_shows (hb : Basic ps) (hshows : List.Forall₂ (Piece.Shows m) ps us)
    (hgives : List.Forall₂ (Piece.Gives q) ps us) (hq : q ≤ m.reading)
    (hreal : NamesDay ps → m.IsReal) : isConsistent ⟨ps⟩ q = true := by
  obtain ⟨-, -, -, -, hweekday, -, -, -, -, hnano, -⟩ := Moment.le_reading_iff.mp hq
  have hdate : hasDate ⟨ps⟩ = true → q.isRealDate = true := by
    intro hdate
    have hday := (hasDate_iff_namesDay hb).mp hdate
    obtain ⟨hd, hw⟩ := hreal hday
    refine (isRealDate_iff_of_gives hgives hq hdate).mpr
      ⟨isKnownYear_of_shows hshows hday.1, hd, fun w hqw => ?_⟩
    rw [← hw]
    simpa [eq_comm] using hweekday w hqw
  have htime : hasTime ⟨ps⟩ = true → q.isRealTime = true :=
    isRealTime_of_gives hgives (keeps_none_iff.mp hnano)
  exact isConsistent_iff.mpr ⟨hdate, htime⟩

end Shown

/-- A pattern of basic tokens and literals, in which no digit can follow a number of varying width,
accepts a value if and only if the value falls into slices that show one moment; where the pattern
names a year, a month and a day, this is a day of the calendar with its weekday. -/
theorem compile_accepts_iff_exists_moment {pattern : String} {ps : List Piece}
    (hw : Written pattern.toList ps) (hb : Basic ps) (hs : Separated ps) :
    ∃ p, compile pattern = .ok p ∧ ∀ value : String, p.accepts value = true ↔
      ∃ (m : Moment) (us : List (List Char)), us.flatten = value.toList ∧
        List.Forall₂ (Piece.Shows m) ps us ∧ (NamesDay ps → m.IsReal) := by
  refine ⟨⟨ps⟩, compile_of_written hw, ?_⟩
  intro value
  rw [accepts_iff_exists_slices]
  constructor
  · rintro ⟨us, hflat, hslices, q, hq, hcons⟩
    have hread := fun z => Reading.ofPieces_flatten_le_iff (r := {}) (z := z) hb hs hslices
    have hgives : List.Forall₂ (Piece.Gives q) ps us := ((hread q).mp ⟨q, hq, q.le_refl⟩).2
    -- The reading may leave components open, which `complete` fills in.
    have hcomplete : List.Forall₂ (Piece.Gives (Moment.complete q).reading) ps us :=
      hgives.imp fun p u => Piece.Gives.complete
    obtain ⟨q', hq', hle⟩ := (hread _).mpr ⟨Reading.empty_le _, hcomplete⟩
    obtain rfl : q = q' := Option.some_inj.mp (hq.symm.trans hq')
    refine ⟨Moment.complete q, us, hflat, (forall₂_shows_iff hb).mpr ⟨hslices, hcomplete⟩, ?_⟩
    intro hday
    have hdate := (hasDate_iff_namesDay hb).mpr hday
    rw [isConsistent, hdate, Bool.and_eq_true] at hcons
    exact isReal_complete hgives hle hdate (by simpa using hcons.1)
  · rintro ⟨m, us, hflat, hshows, hreal⟩
    obtain ⟨hslices, hgives⟩ := (forall₂_shows_iff hb).mp hshows
    have hread := fun z => Reading.ofPieces_flatten_le_iff (r := {}) (z := z) hb hs hslices
    obtain ⟨q, hq, hle⟩ := (hread m.reading).mpr ⟨Reading.empty_le _, hgives⟩
    have hgives : List.Forall₂ (Piece.Gives q) ps us := ((hread q).mp ⟨q, hq, q.le_refl⟩).2
    exact ⟨us, hflat, hslices, q, hq, isConsistent_of_shows hb hshows hgives hle hreal⟩

/-- Days written without padding, as in 29.2.2024. -/
theorem compile_accepts_iff_dotted :
    ∃ p, compile "j.n.Y" = .ok p ∧ ∀ value : String, p.accepts value = true ↔
      ∃ (m : Moment) (us : List (List Char)), us.flatten = value.toList ∧
        List.Forall₂ (Piece.Shows m)
          [.token (.day false), .literal '.', .token (.month false), .literal '.', .token .year]
          us ∧ m.IsReal := by
  have hw : Written "j.n.Y".toList
      [.token (.day false), .literal '.', .token (.month false), .literal '.', .token .year] :=
    .token (by decide) (.plain rfl (by decide) (.token (by decide)
      (.plain rfl (by decide) (.token (by decide) .nil))))
  obtain ⟨p, hp, h⟩ :=
    compile_accepts_iff_exists_moment hw (by simp [Basic, Token.isBasic]) (by decide)
  refine ⟨p, hp, ?_⟩
  intro value
  rw [h value]
  simp [NamesDay]

end FormCheck.DatePattern
