import FormCheck.DatePattern.Reading

/-!
# Readings as partial accounts of a moment

A reading is below another if the other has all its components. The merge of two readings, where
there is one, is their least upper bound, and there is one if they have an upper bound. What a
token adds to the reading before it is merged with what it takes on its own.

## Main definitions

* `join`: one component of a merge.
* `Reading.Le`, written `≤`: the order.
* `Reading.merge`: the components of both readings, unless they disagree.

## Main results

* `Reading.merge_le_iff`, `Reading.exists_merge`: the merge is a least upper bound.
* `Token.read_eq_merge`: reading a token is reading it alone, and then merging.
-/

namespace FormCheck.DatePattern

/-! ## One component -/

section Component

variable {α : Type} {a b c z : Option α}

/-- Whether `z` has the value of `a`, if `a` has one. -/
def Keeps (a z : Option α) : Prop := ∀ x, a = some x → z = some x

theorem keeps_refl (a : Option α) : Keeps a a := fun _ h => h

@[simp] theorem keeps_none (z : Option α) : Keeps none z := fun _ h => nomatch h

theorem keeps_none_iff : Keeps a none ↔ a = none := by
  cases a <;> simp [Keeps]

@[simp] theorem keeps_some_iff {x : α} : Keeps (some x) z ↔ z = some x :=
  ⟨fun h => h x rfl, fun h _ hx => hx ▸ h⟩

variable [DecidableEq α]

/-- The value that either side has, unless both sides have one and differ. -/
def join : Option α → Option α → Option (Option α)
  | a, none => some a
  | a, some x => settle a x

@[simp] theorem join_none (a : Option α) : join a none = some a := rfl

@[simp] theorem join_some (a : Option α) (x : α) : join a (some x) = settle a x := rfl

theorem settle_eq_some_iff {x : α} : settle a x = some c ↔ Keeps a (some x) ∧ c = some x := by
  cases a with
  | none => simp [settle, eq_comm]
  | some y =>
    by_cases h : y = x
    · simp [settle, h, eq_comm]
    · simp [settle, h, Ne.symm h]

theorem keeps_join_iff (h : join a b = some c) : Keeps c z ↔ Keeps a z ∧ Keeps b z := by
  cases b with
  | none =>
    cases h
    simp
  | some x =>
    obtain ⟨ha, rfl⟩ := settle_eq_some_iff.mp h
    rw [keeps_some_iff]
    constructor
    · rintro rfl
      exact ⟨ha, rfl⟩
    · exact And.right

theorem exists_join (ha : Keeps a z) (hb : Keeps b z) : ∃ c, join a b = some c := by
  cases b with
  | none => exact ⟨a, rfl⟩
  | some x =>
    rw [keeps_some_iff] at hb
    exact ⟨some x, settle_eq_some_iff.mpr ⟨hb ▸ ha, rfl⟩⟩

end Component

/-! ## All components -/

namespace Reading

/-- Whether `q` has every component of `r`. -/
structure Le (r q : Reading) : Prop where
  year : Keeps r.year q.year
  yearOfCentury : Keeps r.yearOfCentury q.yearOfCentury
  month : Keeps r.month q.month
  day : Keeps r.day q.day
  weekday : Keeps r.weekday q.weekday
  afternoon : Keeps r.afternoon q.afternoon
  clockHour : Keeps r.clockHour q.clockHour
  minute : Keeps r.minute q.minute
  second : Keeps r.second q.second
  nanosecond : Keeps r.nanosecond q.nanosecond
  timestamp : Keeps r.timestamp q.timestamp
  offset : Keeps r.offset q.offset

instance : LE Reading := ⟨Le⟩

theorem le_iff {r q : Reading} : r ≤ q ↔
    Keeps r.year q.year ∧ Keeps r.yearOfCentury q.yearOfCentury ∧ Keeps r.month q.month ∧
      Keeps r.day q.day ∧ Keeps r.weekday q.weekday ∧ Keeps r.afternoon q.afternoon ∧
      Keeps r.clockHour q.clockHour ∧ Keeps r.minute q.minute ∧ Keeps r.second q.second ∧
      Keeps r.nanosecond q.nanosecond ∧ Keeps r.timestamp q.timestamp ∧
      Keeps r.offset q.offset := by
  constructor
  · rintro ⟨h₁, h₂, h₃, h₄, h₅, h₆, h₇, h₈, h₉, h₁₀, h₁₁, h₁₂⟩
    exact ⟨h₁, h₂, h₃, h₄, h₅, h₆, h₇, h₈, h₉, h₁₀, h₁₁, h₁₂⟩
  · rintro ⟨h₁, h₂, h₃, h₄, h₅, h₆, h₇, h₈, h₉, h₁₀, h₁₁, h₁₂⟩
    exact ⟨h₁, h₂, h₃, h₄, h₅, h₆, h₇, h₈, h₉, h₁₀, h₁₁, h₁₂⟩

theorem le_refl (r : Reading) : r ≤ r :=
  ⟨keeps_refl _, keeps_refl _, keeps_refl _, keeps_refl _, keeps_refl _, keeps_refl _,
    keeps_refl _, keeps_refl _, keeps_refl _, keeps_refl _, keeps_refl _, keeps_refl _⟩

theorem empty_le (q : Reading) : {} ≤ q := by simp [le_iff]

def merge (r q : Reading) : Option Reading := do
  let year ← join r.year q.year
  let yearOfCentury ← join r.yearOfCentury q.yearOfCentury
  let month ← join r.month q.month
  let day ← join r.day q.day
  let weekday ← join r.weekday q.weekday
  let afternoon ← join r.afternoon q.afternoon
  let clockHour ← join r.clockHour q.clockHour
  let minute ← join r.minute q.minute
  let second ← join r.second q.second
  let nanosecond ← join r.nanosecond q.nanosecond
  let timestamp ← join r.timestamp q.timestamp
  let offset ← join r.offset q.offset
  return { year, yearOfCentury, month, day, weekday, afternoon, clockHour, minute, second,
           nanosecond, timestamp, offset }

variable {r p q z : Reading}

/-- A merge joins all components. -/
structure Joins (r p q : Reading) : Prop where
  year : join r.year p.year = some q.year
  yearOfCentury : join r.yearOfCentury p.yearOfCentury = some q.yearOfCentury
  month : join r.month p.month = some q.month
  day : join r.day p.day = some q.day
  weekday : join r.weekday p.weekday = some q.weekday
  afternoon : join r.afternoon p.afternoon = some q.afternoon
  clockHour : join r.clockHour p.clockHour = some q.clockHour
  minute : join r.minute p.minute = some q.minute
  second : join r.second p.second = some q.second
  nanosecond : join r.nanosecond p.nanosecond = some q.nanosecond
  timestamp : join r.timestamp p.timestamp = some q.timestamp
  offset : join r.offset p.offset = some q.offset

theorem merge_eq_some_iff : r.merge p = some q ↔ Joins r p q := by
  constructor
  · intro h
    obtain ⟨_, h₁, h⟩ := Option.bind_eq_some_iff.mp h
    obtain ⟨_, h₂, h⟩ := Option.bind_eq_some_iff.mp h
    obtain ⟨_, h₃, h⟩ := Option.bind_eq_some_iff.mp h
    obtain ⟨_, h₄, h⟩ := Option.bind_eq_some_iff.mp h
    obtain ⟨_, h₅, h⟩ := Option.bind_eq_some_iff.mp h
    obtain ⟨_, h₆, h⟩ := Option.bind_eq_some_iff.mp h
    obtain ⟨_, h₇, h⟩ := Option.bind_eq_some_iff.mp h
    obtain ⟨_, h₈, h⟩ := Option.bind_eq_some_iff.mp h
    obtain ⟨_, h₉, h⟩ := Option.bind_eq_some_iff.mp h
    obtain ⟨_, h₁₀, h⟩ := Option.bind_eq_some_iff.mp h
    obtain ⟨_, h₁₁, h⟩ := Option.bind_eq_some_iff.mp h
    obtain ⟨_, h₁₂, h⟩ := Option.bind_eq_some_iff.mp h
    cases h
    exact ⟨h₁, h₂, h₃, h₄, h₅, h₆, h₇, h₈, h₉, h₁₀, h₁₁, h₁₂⟩
  · rintro ⟨h₁, h₂, h₃, h₄, h₅, h₆, h₇, h₈, h₉, h₁₀, h₁₁, h₁₂⟩
    refine Option.bind_eq_some_iff.mpr ⟨_, h₁, ?_⟩
    refine Option.bind_eq_some_iff.mpr ⟨_, h₂, ?_⟩
    refine Option.bind_eq_some_iff.mpr ⟨_, h₃, ?_⟩
    refine Option.bind_eq_some_iff.mpr ⟨_, h₄, ?_⟩
    refine Option.bind_eq_some_iff.mpr ⟨_, h₅, ?_⟩
    refine Option.bind_eq_some_iff.mpr ⟨_, h₆, ?_⟩
    refine Option.bind_eq_some_iff.mpr ⟨_, h₇, ?_⟩
    refine Option.bind_eq_some_iff.mpr ⟨_, h₈, ?_⟩
    refine Option.bind_eq_some_iff.mpr ⟨_, h₉, ?_⟩
    refine Option.bind_eq_some_iff.mpr ⟨_, h₁₀, ?_⟩
    refine Option.bind_eq_some_iff.mpr ⟨_, h₁₁, ?_⟩
    refine Option.bind_eq_some_iff.mpr ⟨_, h₁₂, ?_⟩
    rfl

theorem merge_le_iff (h : r.merge p = some q) : q ≤ z ↔ r ≤ z ∧ p ≤ z := by
  have hj := merge_eq_some_iff.mp h
  constructor
  · rintro ⟨h₁, h₂, h₃, h₄, h₅, h₆, h₇, h₈, h₉, h₁₀, h₁₁, h₁₂⟩
    rw [keeps_join_iff hj.year] at h₁
    rw [keeps_join_iff hj.yearOfCentury] at h₂
    rw [keeps_join_iff hj.month] at h₃
    rw [keeps_join_iff hj.day] at h₄
    rw [keeps_join_iff hj.weekday] at h₅
    rw [keeps_join_iff hj.afternoon] at h₆
    rw [keeps_join_iff hj.clockHour] at h₇
    rw [keeps_join_iff hj.minute] at h₈
    rw [keeps_join_iff hj.second] at h₉
    rw [keeps_join_iff hj.nanosecond] at h₁₀
    rw [keeps_join_iff hj.timestamp] at h₁₁
    rw [keeps_join_iff hj.offset] at h₁₂
    exact ⟨⟨h₁.1, h₂.1, h₃.1, h₄.1, h₅.1, h₆.1, h₇.1, h₈.1, h₉.1, h₁₀.1, h₁₁.1, h₁₂.1⟩,
      ⟨h₁.2, h₂.2, h₃.2, h₄.2, h₅.2, h₆.2, h₇.2, h₈.2, h₉.2, h₁₀.2, h₁₁.2, h₁₂.2⟩⟩
  · rintro ⟨hr, hp⟩
    exact ⟨(keeps_join_iff hj.year).mpr ⟨hr.year, hp.year⟩,
      (keeps_join_iff hj.yearOfCentury).mpr ⟨hr.yearOfCentury, hp.yearOfCentury⟩,
      (keeps_join_iff hj.month).mpr ⟨hr.month, hp.month⟩,
      (keeps_join_iff hj.day).mpr ⟨hr.day, hp.day⟩,
      (keeps_join_iff hj.weekday).mpr ⟨hr.weekday, hp.weekday⟩,
      (keeps_join_iff hj.afternoon).mpr ⟨hr.afternoon, hp.afternoon⟩,
      (keeps_join_iff hj.clockHour).mpr ⟨hr.clockHour, hp.clockHour⟩,
      (keeps_join_iff hj.minute).mpr ⟨hr.minute, hp.minute⟩,
      (keeps_join_iff hj.second).mpr ⟨hr.second, hp.second⟩,
      (keeps_join_iff hj.nanosecond).mpr ⟨hr.nanosecond, hp.nanosecond⟩,
      (keeps_join_iff hj.timestamp).mpr ⟨hr.timestamp, hp.timestamp⟩,
      (keeps_join_iff hj.offset).mpr ⟨hr.offset, hp.offset⟩⟩

theorem exists_merge (hr : r ≤ z) (hp : p ≤ z) : ∃ q, r.merge p = some q := by
  obtain ⟨_, h₁⟩ := exists_join hr.year hp.year
  obtain ⟨_, h₂⟩ := exists_join hr.yearOfCentury hp.yearOfCentury
  obtain ⟨_, h₃⟩ := exists_join hr.month hp.month
  obtain ⟨_, h₄⟩ := exists_join hr.day hp.day
  obtain ⟨_, h₅⟩ := exists_join hr.weekday hp.weekday
  obtain ⟨_, h₆⟩ := exists_join hr.afternoon hp.afternoon
  obtain ⟨_, h₇⟩ := exists_join hr.clockHour hp.clockHour
  obtain ⟨_, h₈⟩ := exists_join hr.minute hp.minute
  obtain ⟨_, h₉⟩ := exists_join hr.second hp.second
  obtain ⟨_, h₁₀⟩ := exists_join hr.nanosecond hp.nanosecond
  obtain ⟨_, h₁₁⟩ := exists_join hr.timestamp hp.timestamp
  obtain ⟨_, h₁₂⟩ := exists_join hr.offset hp.offset
  exact ⟨⟨_, _, _, _, _, _, _, _, _, _, _, _⟩,
    merge_eq_some_iff.mpr ⟨h₁, h₂, h₃, h₄, h₅, h₆, h₇, h₈, h₉, h₁₀, h₁₁, h₁₂⟩⟩

end Reading

/-- The component that a token takes, in a reading of its own. -/
def Token.take (t : Token) (s : List Char) : Option (Reading × List Char) :=
  match t with
  | day _ => (takeNumberIn 1 31 2 s).map fun p => ({ day := some p.1 }, p.2)
  | month _ => (takeNumberIn 1 12 2 s).map fun p => ({ month := some p.1 }, p.2)
  | year => (takeYear s).map fun p => ({ year := some p.1 }, p.2)
  | yearOfCentury => (takeNumberIn 0 99 2 s).map fun p => ({ yearOfCentury := some p.1 }, p.2)
  | hour _ =>
    (takeNumberIn 0 23 2 s).map fun p =>
      ({ afternoon := some (decide (12 ≤ p.1)), clockHour := some (p.1 % 12) }, p.2)
  | clockHour _ =>
    (takeNumberIn 1 12 2 s).map fun p => ({ clockHour := some (p.1 % 12) }, p.2)
  | minute => (takeNumberIn 0 59 2 s).map fun p => ({ minute := some p.1 }, p.2)
  | second => (takeNumberIn 0 60 2 s).map fun p => ({ second := some p.1 }, p.2)
  | meridiem => (takeMeridiem s).map fun p => ({ afternoon := some p.1 }, p.2)
  | weekday full =>
    (takeName full Calendar.weekdayNames s).map fun p => ({ weekday := some p.1 }, p.2)
  | monthName full =>
    (takeName full Calendar.monthNames s).map fun p => ({ month := some (p.1 + 1) }, p.2)
  | timestamp =>
    (takeNumberIn 0 maxNumber s.length s).map fun p => ({ timestamp := some p.1 }, p.2)
  | milliseconds =>
    (takeFixedNumber 3 s).map fun p => ({ nanosecond := some (p.1 * 1000000) }, p.2)
  | microseconds =>
    (takeFixedNumber 6 s).map fun p => ({ nanosecond := some (p.1 * 1000) }, p.2)
  | offset _ => (takeOffset s).map fun p => ({ offset := some p.1 }, p.2)

theorem Token.read_eq_merge (t : Token) (r : Reading) (s : List Char) :
    t.read r s = (t.take s).bind fun p => (r.merge p.1).map (·, p.2) := by
  cases t <;> simp only [Token.read, Token.take, Option.bind_eq_bind, Option.bind_map] <;>
    refine congrArg (Option.bind _) (funext fun p => ?_) <;>
    dsimp only [Function.comp_apply, Reading.merge, Option.bind_eq_bind, Option.pure_def,
      join_none, join_some, Option.bind_some] <;>
    simp only [Option.map_bind, Function.comp_def, Option.map_some]

end FormCheck.DatePattern
