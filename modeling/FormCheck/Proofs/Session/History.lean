import FormCheck.Session

/-!
# Sessions over time

A program acts on sessions and clones them. The history of a session lists what was done to it,
and before it was cloned to the session that it was cloned from. The history alone determines the
errors of a session: first those of the last run that met no fault, then those added by hand.

## Main definitions

* `Session.Action`, `Session.Step`: acting on one session, and acting on one of many or cloning it.
* `Session.after`: what the steps of a program make of a table of sessions, or of histories.
* `Session.replay`: the session that a history leads to.
* `Session.added`, `Session.found`: the two parts of the errors, read off a history.

## Main results

* `Session.after_eq_map_replay`: every session is the one that its own history leads to.
* `Session.manualErrors_replay`, `Session.errors_replay`: the invariant that links the two copies
  of the errors added by hand.
* `Session.validate_of_error`, `Session.validate_of_ok`: what a run does.
-/

namespace FormCheck.Session

/-! ## Programs -/

/-- What can be done to one session. -/
inductive Action where
  | validate
  | fails
  | addError (message : String)
  | setLabels (labels : Labels)
  | register (name : String) (v : Validator)
  | remove (name : String)
  | setRegistry (registry : Registry)

namespace Action

def apply : Action → Session → Session
  | validate, s => s.validate.value.2
  | fails, s => s.fails.value.2
  | addError message, s => s.addError message
  | setLabels labels, s => s.setLabels labels
  | register name v, s => (s.register name v).value
  | remove name, s => (s.remove name).value
  | setRegistry registry, s => s.setRegistry registry

def isRun : Action → Bool
  | validate | fails => true
  | _ => false

/-- The message that the action adds by hand. -/
def message? : Action → Option String
  | addError message => some message
  | _ => none

end Action

/-- A step of a program with many sessions. A clone takes the next free place of the table. -/
inductive Step where
  | act (place : Nat) (a : Action)
  | clone (place : Nat)

/-- The table after the steps of a program, the latest step first, where an action changes its
entry by `f`. -/
def after {α : Type} (f : Action → α → α) (start : α) : List Step → List α
  | [] => [start]
  | .act place a :: past => (after f start past).modify place (f a)
  | .clone place :: past => after f start past ++ (after f start past)[place]?.toList

/-- What happened to each session, the latest first. -/
def histories (steps : List Step) : List (List Action) := after List.cons [] steps

/-- The session that a history leads to. -/
def replay (start : Session) : List Action → Session
  | [] => start
  | a :: past => a.apply (replay start past)

theorem map_modify {α β : Type} {f : α → α} {g : β → β} {k : α → β}
    (h : ∀ x, k (f x) = g (k x)) (xs : List α) (place : Nat) :
    (xs.modify place f).map k = (xs.map k).modify place g := by
  induction xs generalizing place with
  | nil => simp
  | cons x xs ih => cases place <;> simp [h, ih]

/-- Acting on one session leaves the others alone, clones included. -/
theorem after_eq_map_replay (start : Session) (steps : List Step) :
    after Action.apply start steps = (histories steps).map (replay start) := by
  induction steps with
  | nil => rfl
  | cons step past ih =>
    cases step with
    | act place a =>
      simp only [histories, after, ih]
      exact (map_modify (f := List.cons a) (g := a.apply) (k := replay start) (fun _ => rfl)
        _ _).symm
    | clone place =>
      simp only [histories, after, ih, List.map_append, List.getElem?_map]
      cases (after List.cons [] past)[place]? <;> rfl

/-! ## The two parts of the errors -/

/-- What a run of the rules finds now. -/
def findings (s : Session) : Except Fault ErrorLog :=
  (s.engine.run s.fields s.rules s.labels).value

/-- The messages that were added by hand. -/
def added : List Action → List String
  | [] => []
  | a :: past => added past ++ a.message?.toList

/-- The messages that the rules gave in the latest run without a fault. -/
def found (start : Session) : List Action → List String
  | [] => []
  | a :: past =>
    if a.isRun then
      match (replay start past).findings with
      | .ok log => log.errors
      | .error _ => found start past
    else found start past

/-! ## Runs -/

theorem validate_of_error {s : Session} {fault : Fault} (h : s.findings = .error fault) :
    s.validate.value = (.error fault, s) := by
  rw [findings] at h
  simp [validate, h]

theorem validate_of_ok {s : Session} {log : ErrorLog} (h : s.findings = .ok log) :
    s.validate.value =
      (.ok (log.extend s.manualErrors), { s with log := log.extend s.manualErrors }) := by
  rw [findings] at h
  simp [validate, h]

theorem fails_of_validate {s t : Session} {outcome : Except Fault ErrorLog}
    (h : s.validate.value = (outcome, t)) : s.fails.value = (outcome.map ErrorLog.fails, t) := by
  rw [fails, Traced.value_map, h]

/-! ## Steps -/

namespace Action

/-- Telling whether there is an error runs the rules as validating does. -/
theorem apply_of_isRun {a : Action} (h : a.isRun = true) (s : Session) :
    a.apply s = s.validate.value.2 := by
  cases a with
  | validate => rfl
  | fails => rfl
  | _ => cases h

theorem message?_of_isRun {a : Action} (h : a.isRun = true) : a.message? = none := by
  cases a with
  | addError => cases h
  | _ => rfl

/-- Every action keeps the messages added by hand, and at most adds one. -/
theorem manualErrors_apply (a : Action) (s : Session) :
    (a.apply s).manualErrors = s.manualErrors ++ a.message?.toList := by
  by_cases hr : a.isRun = true
  · rw [apply_of_isRun hr, message?_of_isRun hr, Option.toList_none, List.append_nil]
    cases h : s.findings with
    | error fault => rw [validate_of_error h]
    | ok log => rw [validate_of_ok h]
  · cases a with
    | validate => exact absurd rfl hr
    | fails => exact absurd rfl hr
    | addError => rfl
    | _ => exact (List.append_nil _).symm

/-- Only runs change what is shown otherwise than by the message that is added. -/
theorem errors_apply_of_not_isRun {a : Action} (h : a.isRun = false) (s : Session) :
    (a.apply s).errors = s.errors ++ a.message?.toList := by
  cases a with
  | validate => cases h
  | fails => cases h
  | addError => rfl
  | _ => exact (List.append_nil _).symm

end Action

/-! ## The invariant -/

theorem manualErrors_replay {start : Session} (h : start.manualErrors = [])
    (history : List Action) : (replay start history).manualErrors = added history := by
  induction history with
  | nil => exact h
  | cons a past ih => rw [replay, a.manualErrors_apply, ih, added]

theorem errors_replay {start : Session} (hm : start.manualErrors = []) (he : start.errors = [])
    (history : List Action) :
    (replay start history).errors = found start history ++ added history := by
  induction history with
  | nil => exact he
  | cons a past ih =>
    rw [replay, found, added]
    by_cases hr : a.isRun = true
    · -- A run shows what it finds, and then the second copy of what was added by hand.
      have hman := manualErrors_replay hm past
      rw [a.apply_of_isRun hr, a.message?_of_isRun hr, Option.toList_none, List.append_nil,
        if_pos hr]
      cases hf : (replay start past).findings with
      | error fault => rw [validate_of_error hf]; exact ih
      | ok log => rw [validate_of_ok hf]; exact congrArg (log.errors ++ ·) hman
    · rw [a.errors_apply_of_not_isRun (by simpa using hr), if_neg hr, ih, List.append_assoc]

/-- Whatever a program does, the errors of each session are those of the latest run of its history
that met no fault, and then those added by hand. A run with a fault changes nothing. Any other run
changes the log alone, tells whether the new log has an error, and can be repeated. -/
theorem errors_eq_found_append_added (fields : Fields) (rules : Rules) (steps : List Step) :
    (after Action.apply (new fields rules).value steps).map errors =
        (histories steps).map (fun h => found (new fields rules).value h ++ added h) ∧
      (after Action.apply (new fields rules).value steps).map manualErrors =
        (histories steps).map added ∧
      ∀ s : Session,
        match s.findings with
        | .error fault =>
          s.validate.value = (.error fault, s) ∧ s.fails.value = (.error fault, s)
        | .ok log =>
          ∃ t : Session, ∃ b : Bool,
            t = { s with log := ⟨log.errors ++ s.manualErrors⟩ } ∧
              s.validate.value = (.ok t.log, t) ∧ s.fails.value = (.ok b, t) ∧
              (b = true ↔ t.errors ≠ []) ∧
              t.validate.value = (.ok t.log, t) ∧ t.fails.value = (.ok b, t) := by
  refine ⟨?_, ?_, ?_⟩
  · rw [after_eq_map_replay, List.map_map]
    exact List.map_congr_left fun h _ => errors_replay rfl rfl h
  · rw [after_eq_map_replay, List.map_map]
    exact List.map_congr_left fun h _ => manualErrors_replay rfl h
  · intro s
    split
    · next fault h =>
      exact ⟨validate_of_error h, fails_of_validate (validate_of_error h)⟩
    · next log h =>
      have hs := validate_of_ok h
      -- The new session has the same fields, rules, labels and validators, so it finds the same.
      have ht := validate_of_ok (s := { s with log := log.extend s.manualErrors }) h
      exact ⟨_, _, rfl, hs, fails_of_validate hs, ErrorLog.fails_iff, ht, fails_of_validate ht⟩

end FormCheck.Session
