import FormCheck.Log.Logger

/-!
# Processes that log

A process starts its logger when it first uses it, in the environment that it has by then. The
calls that follow change the level and the debug flag, but never the settings. What a process writes
is one line for each call that was enabled when it was made.

## Main definitions

* `Log.Entry`, `Log.Call`: what a program logs, and what it asks of its logger.
* `Log.Process`: a process, with `Process.step` for the step from one call to the next.
* `Environment.atStart`: the environment that the logger starts in.
* `Process.output`: what a process writes.
* `Process.logged`: the entries of the calls that were enabled.
* `Log.reports`: the calls with which the events of a trace are reported.
* `Process.watch`: a computation whose trace is reported.

## Main results

* `Process.settings_after_of_started`: the settings stay as they were read.
* `Process.settings_after`: they are read in the environment at the start.
* `Process.written_eq`, `Process.output_eq`: the output consists of the lines of the logged entries.
* `Process.logger_after_reports`, `Process.logged_reports`, `Process.output_reports`: what
  reporting a trace does.
-/

namespace FormCheck.Log

/-- A message with all that its line shows. -/
structure Entry where
  now : Stamp
  level : Level
  target : String
  message : String
deriving DecidableEq, Repr

namespace Entry

def event (r : Entry) : Event := ⟨r.target, r.message⟩

/-- The line of an entry in the layout of a logger, without its end. -/
def line (r : Entry) (lg : Logger) : String := lg.line r.now r.level r.target r.message

/-- The layout is a matter of the settings. -/
theorem line_congr {lg lg' : Logger} (h : lg.settings = lg'.settings) (r : Entry) :
    r.line lg = r.line lg' := by
  simp only [line, Logger.line, h]

end Entry

/-- What a program asks of its logger. -/
inductive Call where
  /-- Starts the logger, as every query does. -/
  | init
  | setLevel (level : Level)
  | setDebug (debug : Bool)
  /-- Sets the variables of the process and reads them, which does not start the logger. -/
  | reread (env : Environment)
  | write (r : Entry)
  /-- Reports an entry in the way of its level. -/
  | report (r : Entry)

/-- The entry that a call is to log. -/
def Call.toLog? : Call → Option Entry
  | write r | report r => some r
  | _ => none

/-- The calls that report the events of a trace as debug entries. The clock gives their times. -/
def reports (clock : Nat → Stamp) (events : List Event) : List Call :=
  events.mapIdx fun i ev => .report ⟨clock i, .debug, ev.target, ev.message⟩

theorem reports_cons (clock : Nat → Stamp) (ev : Event) (events : List Event) :
    reports clock (ev :: events) =
      .report ⟨clock 0, .debug, ev.target, ev.message⟩ ::
        reports (fun i => clock (i + 1)) events :=
  List.mapIdx_cons

/-- The environment that the logger starts in, if the process has `env` before the calls: variables
that are set before its first use count, and those that are set later do not. -/
def Environment.atStart : Environment → List Call → Environment
  | _, .reread env :: calls => env.atStart calls
  | env, _ => env

structure Process where
  /-- The variables of the process as they are now. -/
  environment : Environment
  /-- The logger, once it has started. -/
  started? : Option Logger := none

namespace Process

/-- The logger as its next use finds it. -/
def logger (p : Process) : Logger := p.started?.getD (.start p.environment)

/-- The process after a call. A logger that starts later reads the variables that are set by
then. -/
def step (p : Process) : Call → Process
  | .setLevel level => { p with started? := some (p.logger.setLevel level) }
  | .setDebug debug => { p with started? := some (p.logger.setDebug debug) }
  | .reread env => { environment := env, started? := p.started?.map (·.reread env) }
  | .init | .write _ | .report _ => { p with started? := some p.logger }

def after (p : Process) (calls : List Call) : Process := calls.foldl step p

/-- What a call writes. -/
def written (p : Process) : Call → String
  | .write r => p.logger.write r.now r.level r.target r.message
  | .report r => p.logger.reportAt r.now r.level r.target r.message
  | _ => ""

/-- What the calls of a program write. -/
def output : Process → List Call → String
  | _, [] => ""
  | p, c :: cs => p.written c ++ output (p.step c) cs

/-- The entry of a call that is enabled: its level is not `off`, and at least that of the
logger. -/
def enabled? (p : Process) (c : Call) : Option Entry :=
  c.toLog?.filter fun r => r.level ≠ .off ∧ p.logger.level ≤ r.level

/-- The entries of the calls that were enabled when they were made. -/
def logged : Process → List Call → List Entry
  | _, [] => []
  | p, c :: cs => (p.enabled? c).toList ++ logged (p.step c) cs

/-- Makes a computation in a process and reports its trace there. The result is the value, the
process afterwards, and what it has written meanwhile. -/
def watch {α : Type} (p : Process) (clock : Nat → Stamp) (t : Traced α) : α × Process × String :=
  (t.value, p.after (reports clock t.events), p.output (reports clock t.events))

/-! ## The settings -/

/-- A logger that has started has started for good, and keeps its settings. -/
theorem started_step {p : Process} (h : p.started?.isSome = true) (c : Call) :
    (p.step c).started?.isSome = true ∧ (p.step c).logger.settings = p.logger.settings := by
  obtain ⟨env, started⟩ := p
  cases c with
  | reread =>
    cases started with
    | none => cases h
    | some lg => exact ⟨rfl, rfl⟩
  | _ => exact ⟨rfl, rfl⟩

theorem settings_after_of_started {p : Process} (h : p.started?.isSome = true)
    (calls : List Call) : (p.after calls).logger.settings = p.logger.settings := by
  induction calls generalizing p with
  | nil => rfl
  | cons c cs ih =>
    obtain ⟨hstarted, hsettings⟩ := started_step h c
    exact (ih hstarted).trans hsettings

theorem settings_after (env : Environment) (calls : List Call) :
    (after { environment := env } calls).logger.settings = .ofEnvironment (env.atStart calls) := by
  induction calls generalizing env with
  | nil => rfl
  | cons c cs ih =>
    cases c with
    | reread other => exact ih other
    | _ => exact settings_after_of_started rfl cs

/-- Variables count that are set before the first use of the logger, and no others. -/
example :
    let p : Process := { environment := { layout := some "json" } }
    let pretty : Call := .reread { layout := some "pretty" }
    (p.after [pretty, .init]).logger.settings.layout = .pretty ∧
      (p.after [.init, pretty]).logger.settings.layout = .json := by
  decide

/-! ## The output -/

/-- Asking beforehand whether a level is enabled drops no line. -/
theorem reportAt_eq_write (lg : Logger) (now : Stamp) (level : Level) (target message : String) :
    lg.reportAt now level target message = lg.write now level target message := by
  cases level with
  | debug => grind [Logger.reportAt, Logger.reportDebug, Logger.write]
  | _ => grind [Logger.reportAt, Logger.report, Logger.write]

theorem write_eq (p : Process) (r : Entry) :
    p.logger.write r.now r.level r.target r.message =
      String.join ((p.enabled? (.write r)).toList.map fun r => r.line p.logger ++ "\n") := by
  by_cases h : r.level ≠ .off ∧ p.logger.level ≤ r.level
  · have hentry : p.enabled? (.write r) = some r := by
      simpa [enabled?, Call.toLog?, Option.filter_some] using h
    simp [Logger.write, Logger.isEnabled, h, hentry, Entry.line]
  · have hentry : p.enabled? (.write r) = none := by
      simpa [enabled?, Call.toLog?, Option.filter_some] using h
    simp [Logger.write, Logger.isEnabled, h, hentry]

theorem written_eq (p : Process) (c : Call) :
    p.written c =
      String.join ((p.enabled? c).toList.map fun r => r.line p.logger ++ "\n") := by
  cases c with
  | write r => exact p.write_eq r
  | report r => exact (reportAt_eq_write ..).trans (p.write_eq r)
  | _ => rfl

/-- A call that logs starts the logger, and finds it so. -/
theorem started_step_of_enabled {p : Process} {c : Call} {r : Entry} (h : p.enabled? c = some r) :
    (p.step c).started?.isSome = true ∧ (p.step c).logger = p.logger := by
  cases c with
  | write | report => exact ⟨rfl, rfl⟩
  | _ => cases h

/-- The lines of the logged entries, all in the layout that was read when the logger started. -/
theorem output_eq (p : Process) (calls : List Call) :
    p.output calls =
      String.join ((p.logged calls).map fun r => r.line (p.after calls).logger ++ "\n") := by
  induction calls generalizing p with
  | nil => rfl
  | cons c cs ih =>
    have hline : ∀ r ∈ p.enabled? c, r.line p.logger = r.line (p.after (c :: cs)).logger := by
      intro r hr
      obtain ⟨hstarted, hlogger⟩ := started_step_of_enabled hr
      exact Entry.line_congr (hlogger ▸ settings_after_of_started hstarted cs).symm r
    have hafter : (p.after (c :: cs)) = (p.step c).after cs := rfl
    rw [output, logged, List.map_append, String.join_append, ih, written_eq, ← hafter]
    cases h : p.enabled? c with
    | none => rfl
    | some r => simp only [Option.toList_some, List.map_singleton, hline r h]

/-! ## Reporting a trace -/

theorem logger_step_report (p : Process) (r : Entry) : (p.step (.report r)).logger = p.logger := rfl

theorem logger_after_reports (p : Process) (clock : Nat → Stamp) (events : List Event) :
    (p.after (reports clock events)).logger = p.logger := by
  induction events generalizing p clock with
  | nil => rfl
  | cons ev events ih =>
    rw [reports_cons]
    exact ih (p.step _) _

/-- A logger that writes debug lines logs the whole trace, and any other nothing of it. -/
theorem logged_reports (p : Process) (clock : Nat → Stamp) (events : List Event) :
    (p.logged (reports clock events)).map Entry.event =
      if p.logger.isEnabled .debug then events else [] := by
  induction events generalizing p clock with
  | nil => simp [reports, logged]
  | cons ev events ih =>
    rw [reports_cons, logged, List.map_append, ih, logger_step_report]
    by_cases h : p.logger.level ≤ .debug
    · simp [enabled?, Call.toLog?, Option.filter_some, Logger.isEnabled, Entry.event, h]
    · simp [enabled?, Call.toLog?, Option.filter_some, Logger.isEnabled, h]

/-- At a single moment, the calls write what the logger writes for the trace. -/
theorem output_reports (p : Process) (now : Stamp) (events : List Event) :
    p.output (reports (fun _ => now) events) = p.logger.writeEvents now events := by
  induction events generalizing p with
  | nil => rfl
  | cons ev events ih =>
    rw [reports_cons, output, ih, logger_step_report, Logger.writeEvents, Logger.writeEvents,
      List.map_cons, String.join_cons]
    rfl

end Process

end FormCheck.Log
