import FormCheck.Proofs.Engine.Reordering
import FormCheck.Proofs.Log.Process
import Mathlib.Data.List.TakeWhile

/-!
# What a run reports

While a run looks for messages it reports each invocation that fails, and at its end how it ended.
What it reports follows from the invocations of its rules in the same way as its outcome does, so
that the two can be compared: there are as many failures as messages, and the invocation that is
reported as unresolved is the one that the fault is about. A validator may report for itself between
the lines of the engine.

## Main definitions

* `Registry.IsSilentOn`: whether no validator of a registry reports under a target.
* `Engine.failing`: the invocations that fail before one does not resolve.
* `Engine.report`: what the engine reports of a list of invocations.

## Main results

* `Engine.report_append`: lists of invocations are reported one after the other.
* `Engine.own_events_runInvocations`, `Engine.own_events_runRules`: the loops over invocations and
  rules report just this, and so does a run, up to its closing line.
* `Engine.length_failing`: the failures that are reported are as many as the messages.
* `Engine.watch_run`: what a process writes meanwhile.
-/

namespace FormCheck

/-- Whether no validator of the registry reports under a target. -/
def Registry.IsSilentOn (r : Registry) (target : String) : Prop :=
  ∀ name v, r.get? name = some v → ∀ value modifier, ∀ ev ∈ v.events value modifier,
    ev.target ≠ target

/-- The built-in validators report under a target of their own. -/
theorem Registry.isSilentOn_builtin : builtin.value.IsSilentOn Engine.eventTarget := by
  intro name v hv value modifier ev hev
  have hmem : (name, v) ∈ Validator.builtins := OrderedMap.get?_eq_some_iff.mp hv
  have htarget : ev.target = Validator.eventTarget := by
    simp only [Validator.builtins, List.mem_cons, Prod.mk.injEq, List.not_mem_nil, or_false] at hmem
    obtain ⟨-, rfl⟩ | ⟨-, rfl⟩ | ⟨-, rfl⟩ | ⟨-, rfl⟩ := hmem
    · cases hev
    · cases hev
    · cases hev
    · simp only [Validator.dateFormat] at hev
      split at hev
      · cases hev
      · rw [List.mem_singleton.mp hev]
      · split at hev
        · cases hev
        · rw [List.mem_singleton.mp hev]
  rw [htarget]
  decide

namespace Engine

/-! ## Lists of invocations -/

/-- Whether the validator of an invocation rejects the field's value. -/
def rejects (e : Engine) (fields : Fields) (p : String × Invocation) : Bool :=
  match e.registry.get? p.2.name with
  | some v => !v.accepts (fields.get? p.1) p.2.modifier
  | none => false

/-- The invocations that fail, up to the first one that does not resolve. -/
def failing (e : Engine) (fields : Fields) (ps : List (String × Invocation)) :
    List (String × Invocation) :=
  (ps.takeWhile e.resolves).filter (e.rejects fields)

/-- What the engine reports of a list of invocations: those that fail, and the one that does not
resolve. -/
def report (e : Engine) (fields : Fields) (ps : List (String × Invocation)) : List Event :=
  (e.failing fields ps).map (fun p => failedEvent p.1 p.2) ++
    (ps.find? fun p => !e.resolves p).toList.map fun p => unresolvedEvent p.1 p.2

variable {e : Engine} {fields : Fields} {labels : Labels}

theorem report_cons_of_unresolved {p : String × Invocation} (ps : List (String × Invocation))
    (h : e.registry.get? p.2.name = none) :
    e.report fields (p :: ps) = [unresolvedEvent p.1 p.2] := by
  simp [report, failing, resolves, h]

theorem report_cons_of_resolved {p : String × Invocation} {v : Validator}
    (ps : List (String × Invocation)) (h : e.registry.get? p.2.name = some v) :
    e.report fields (p :: ps) =
      (if v.accepts (fields.get? p.1) p.2.modifier then [] else [failedEvent p.1 p.2]) ++
        e.report fields ps := by
  by_cases ha : v.accepts (fields.get? p.1) p.2.modifier = true
  · simp [report, failing, resolves, rejects, h, ha]
  · simp [report, failing, resolves, rejects, h, ha]

/-- Behind an invocation that does not resolve there is nothing to report. -/
theorem report_append (ps qs : List (String × Invocation)) :
    e.report fields (ps ++ qs) =
      e.report fields ps ++ if ps.all e.resolves then e.report fields qs else [] := by
  induction ps with
  | nil => simp [report, failing]
  | cons p ps ih =>
    cases h : e.registry.get? p.2.name with
    | none =>
      rw [List.cons_append, report_cons_of_unresolved _ h, report_cons_of_unresolved _ h]
      simp [resolves, h]
    | some v =>
      have hp : e.resolves p = true := by simp [resolves, h]
      rw [List.cons_append, report_cons_of_resolved _ h, report_cons_of_resolved _ h, ih,
        List.append_assoc, List.all_cons, hp, Bool.true_and]

theorem rejects_eq_isSome (labels : Labels) (p : String × Invocation) :
    e.rejects fields p = (e.failure? fields labels p).isSome := by
  rw [rejects, failure?]
  cases e.registry.get? p.2.name with
  | none => rfl
  | some v => by_cases ha : v.accepts (fields.get? p.1) p.2.modifier = true <;> simp [ha]

theorem length_failing (labels : Labels) {ps : List (String × Invocation)}
    (h : ∀ p ∈ ps, e.resolves p = true) :
    (e.failing fields ps).length = (e.failures fields labels ps).length := by
  have hall : ps.takeWhile e.resolves = ps := List.takeWhile_eq_self_iff.mpr h
  rw [failing, hall, failures, List.length_filterMap_eq_countP, ← List.countP_eq_length_filter]
  exact List.countP_congr fun p _ => by rw [rejects_eq_isSome labels]

/-! ## The loops -/

/-- The events that come from the engine itself. -/
def own (events : List Event) : List Event := events.filter fun ev => ev.target == eventTarget

theorem own_append (events others : List Event) :
    own (events ++ others) = own events ++ own others :=
  List.filter_append events others

theorem own_events_of_isSilentOn {name : String} {v : Validator}
    (h : e.registry.IsSilentOn eventTarget) (hv : e.registry.get? name = some v)
    (value modifier : Option String) : own (v.events value modifier) = [] := by
  rw [own, List.filter_eq_nil_iff]
  intro ev hev
  simpa using h name v hv value modifier ev hev

theorem own_events_runInvocations (h : e.registry.IsSilentOn eventTarget) (fields : Fields)
    (field label : String) (is : List Invocation) :
    own (e.runInvocations field label (fields.get? field) is).events =
      e.report fields (is.map fun i => (field, i)) := by
  induction is with
  | nil => rfl
  | cons i is ih =>
    rw [List.map_cons]
    cases hv : e.registry.get? i.name with
    | none =>
      rw [report_cons_of_unresolved _ hv]
      simp only [runInvocations, hv]
      rfl
    | some v =>
      have hsilent := own_events_of_isSilentOn h hv (fields.get? field) i.modifier
      rw [report_cons_of_resolved _ hv, ← ih]
      by_cases ha : v.accepts (fields.get? field) i.modifier = true
      · simp only [runInvocations, hv, ha, if_true, own_append, hsilent]
      · simp only [runInvocations, hv, ha, Bool.false_eq_true, if_false, own_append, hsilent]
        rfl

theorem own_events_runRules (h : e.registry.IsSilentOn eventTarget) (fields : Fields)
    (labels : Labels) (rules : List (String × String)) :
    own (e.runRules fields labels rules).events = e.report fields (invocationsOf rules) := by
  induction rules with
  | nil => rfl
  | cons r rules ih =>
    obtain ⟨field, expression⟩ := r
    have hown := own_events_runInvocations h fields field (labels.labelFor field)
      (Invocation.parse expression)
    have hvalue := e.value_runInvocations fields labels field (Invocation.parse expression)
    rw [invocationsOf_cons, report_append, ← hown, ← ih]
    cases hhere : (e.runInvocations field (labels.labelFor field) (fields.get? field)
        (Invocation.parse expression)).value with
    | error fault =>
      -- A fault ends the loop, and the report with it.
      have hall : ((Invocation.parse expression).map fun i => (field, i)).all e.resolves =
          false := by
        by_contra hall
        rw [Bool.not_eq_false, List.all_eq_true] at hall
        rw [evaluate_eq_ok_iff.mpr ⟨hall, rfl⟩, hhere] at hvalue
        cases hvalue
      simp [runRules, hhere, hall]
    | ok messages =>
      rw [hhere] at hvalue
      have hall := List.all_eq_true.mpr (evaluate_eq_ok_iff.mp hvalue.symm).1
      simp [runRules, hhere, hall, own_append]

/-! ## A run -/

theorem own_events_run (h : e.registry.IsSilentOn eventTarget) (rules : Rules) :
    own (e.run fields rules labels).events =
      e.report fields rules.invocations ++
        match (e.run fields rules labels).value with
        | .error _ => []
        | .ok log => [closingEvent rules.size log.size] := by
  have hrules := own_events_runRules h fields labels rules.toList
  have hreport : own (e.runRules fields labels rules.toList).events =
      e.report fields rules.invocations := hrules
  rw [run, Traced.events_andThen, Traced.value_andThen, own_append, hreport]
  cases (e.runRules fields labels rules.toList).value <;> rfl

theorem own_events_run_of_ok (h : e.registry.IsSilentOn eventTarget) {rules : Rules}
    {log : ErrorLog} (hrun : (e.run fields rules labels).value = .ok log) :
    own (e.run fields rules labels).events =
        (e.failing fields rules.invocations).map (fun q => failedEvent q.1 q.2) ++
          [closingEvent rules.size log.size] ∧
      log.size = (e.failing fields rules.invocations).length := by
  obtain ⟨hall, herrors⟩ := run_eq_ok_iff.mp hrun
  have hfind : (rules.invocations.find? fun q => !e.resolves q) = none := by simpa using hall
  constructor
  · rw [own_events_run h, hrun, report, hfind, Option.toList_none, List.map_nil, List.append_nil]
  · rw [ErrorLog.size, herrors, length_failing labels hall]

theorem own_events_run_of_error (h : e.registry.IsSilentOn eventTarget) {rules : Rules}
    {fault : Fault} (hrun : (e.run fields rules labels).value = .error fault) :
    ∃ field i,
      own (e.run fields rules labels).events =
          (e.failing fields rules.invocations).map (fun q => failedEvent q.1 q.2) ++
            [unresolvedEvent field i] ∧
        fault = .unresolvedValidator field i.name := by
  have hphases := e.value_run_two_phases fields labels rules
  rw [hrun] at hphases
  cases hfind : rules.invocations.find? fun q => !e.resolves q with
  | none =>
    rw [hfind] at hphases
    cases hphases
  | some q =>
    obtain ⟨field, i⟩ := q
    rw [hfind] at hphases
    refine ⟨field, i, ?_, Except.error.inj hphases⟩
    rw [own_events_run h, hrun, report, hfind, List.append_nil]
    rfl

/-! ## What is written -/

/-- The messages of the events that come from the engine itself. -/
def ownMessages (events : List Event) : List String :=
  (events.filter fun ev => ev.target == "gatekeep_validation::engine").map Event.message

theorem ownMessages_eq (events : List Event) :
    ownMessages events = (own events).map Event.message := rfl

theorem message_failedEvent (field : String) (i : Invocation) :
    (failedEvent field i).message =
      "Field '" ++ field ++ "' failed rule '" ++ i.name ++ i.modifier.elim "" (":" ++ ·) ++
        "'" := by
  have htext : i.text = i.name ++ i.modifier.elim "" (":" ++ ·) := by
    obtain ⟨name, modifier⟩ := i
    cases modifier with
    | none => exact String.append_empty.symm
    | some m => exact String.append_assoc
  simp only [failedEvent, htext, String.append_assoc]

/-- What the engine logs in a process that logs debug lines: each failure up to the first invocation
that does not resolve, in order, and one closing line. A log has a message for each of these
failures, and the closing line counts them. A fault is about the invocation that the closing line
names. A process that does not log debug lines writes nothing. The logger stays as it is either way,
and the outcome is that of the run. -/
theorem watch_run (p : Log.Process) (clock : Nat → Log.Stamp) (e : Engine) (fields : Fields)
    (rules : Rules) (labels : Labels)
    (h : e.registry.IsSilentOn "gatekeep_validation::engine") :
    let run := e.run fields rules labels
    let logged := p.logged (Log.reports clock run.events)
    let lines := ownMessages (logged.map Log.Entry.event)
    let failures := (e.failing fields rules.invocations).map fun q =>
      "Field '" ++ q.1 ++ "' failed rule '" ++ q.2.name ++ q.2.modifier.elim "" (":" ++ ·) ++ "'"
    ∃ (q : Log.Process) (text : String),
      p.watch clock run = (run.value, q, text) ∧ q.logger = p.logger ∧
      text = String.join (logged.map fun r => r.line p.logger ++ "\n") ∧
      (p.logger.isEnabled .debug = false → text = "") ∧
      (p.logger.isEnabled .debug = true →
        match run.value with
        | .ok log =>
          lines = failures ++ ["Validated " ++ toString rules.size ++ " fields, " ++
            toString log.size ++ " errors"] ∧ log.size = failures.length
        | .error fault => ∃ field name,
          lines = failures ++ ["Rule '" ++ name ++ "' on field '" ++ field ++
            "' names no registered validator"] ∧ fault = .unresolvedValidator field name) := by
  intro run logged lines failures
  have hlogged : logged.map Log.Entry.event =
      if p.logger.isEnabled .debug then run.events else [] := p.logged_reports clock run.events
  have hlogger := p.logger_after_reports clock run.events
  have htext := p.output_eq (Log.reports clock run.events)
  rw [hlogger] at htext
  have hfailures : ((e.failing fields rules.invocations).map fun q => failedEvent q.1 q.2).map
      Event.message = failures := by
    rw [List.map_map]
    exact List.map_congr_left fun q _ => message_failedEvent q.1 q.2
  refine ⟨_, _, rfl, hlogger, htext, ?_, ?_⟩
  · intro hdisabled
    have hnil : logged = [] := by simpa [hdisabled] using hlogged
    rw [htext]
    exact congrArg (fun l => String.join (l.map fun r => r.line p.logger ++ "\n")) hnil
  · intro henabled
    have hlines : lines = (own run.events).map Event.message := by
      have hevents : logged.map Log.Entry.event = run.events := by rw [hlogged, if_pos henabled]
      rw [← ownMessages_eq, ← hevents]
    cases hrun : run.value with
    | ok log =>
      obtain ⟨hown, hsize⟩ := own_events_run_of_ok h hrun
      refine ⟨?_, by rw [hsize, List.length_map]⟩
      rw [hlines, hown, List.map_append, hfailures]
      rfl
    | error fault =>
      obtain ⟨field, i, hown, rfl⟩ := own_events_run_of_error h hrun
      refine ⟨field, i.name, ?_, rfl⟩
      rw [hlines, hown, List.map_append, hfailures]
      rfl

/-- One failure and then a name that is not registered, in a process that starts with the debug
switch. -/
theorem watch_run_unresolved :
    let p : Log.Process := { environment := { debug := some "1" } }
    let run := builtin.value.run {} (.ofList [("name", "len:8|age")]) {}
    let clock : Nat → Log.Stamp := fun _ => ⟨"", ""⟩
    builtin.value.registry.IsSilentOn "gatekeep_validation::engine" ∧
      p.logger.isEnabled .debug = true ∧
      ∃ q text, p.watch clock run = (.error (.unresolvedValidator "name" "age"), q, text) ∧
        q.logger = p.logger ∧
        ownMessages ((p.logged (Log.reports clock run.events)).map Log.Entry.event) =
          ["Field 'name' failed rule 'len:8'",
            "Rule 'age' on field 'name' names no registered validator"] := by
  intro p run clock
  have hsilent : builtin.value.registry.IsSilentOn "gatekeep_validation::engine" :=
    Registry.isSilentOn_builtin
  have henabled : p.logger.isEnabled .debug = true := by decide
  obtain ⟨q, text, hwatch, hlogger, -, -, hlines⟩ :=
    watch_run p clock builtin.value {} (.ofList [("name", "len:8|age")]) {} hsilent
  obtain ⟨field, name, hlines, hfault⟩ := hlines henabled
  cases hfault
  exact ⟨hsilent, henabled, q, text, hwatch, hlogger, hlines⟩

end Engine

end FormCheck
