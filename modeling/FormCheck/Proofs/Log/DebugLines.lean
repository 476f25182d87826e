import FormCheck.Proofs.Log.Process
import Mathlib.Data.List.Induction

/-!
# Debug lines

A debug line is asked for by the debug flag or by the level, but only the level decides whether it
is written. The two part ways where the flag is on and the level is above `debug`. A process gets
there by an environment that says both, or by a level that is set while the flag is on, and stays
there until the level or the flag is set again.

## Main definitions

* `Process.Muted`: the flag asks for debug lines and the level drops them.
* `Environment.Mutes`, `Process.Mutes`: what brings that about.
* `Call.resets`: what may end it.

## Main results

* `Process.muted_step_iff`: what a call does to a muted process, and which calls make one.
* `Process.exists_mutes_of_muted`: where a muted process comes from.
* `Process.written_debug`: the level alone decides.
-/

namespace FormCheck.Log

theorem Level.not_le_iff {a b : Level} : ¬a ≤ b ↔ b < a := Nat.not_le

/-- Whether an environment turns the debug flag on and names a level above `debug`. -/
def Environment.Mutes (env : Environment) : Prop :=
  env.debug.any Settings.isOn = true ∧
    ∃ level, env.level.bind Level.parse? = some level ∧ .debug < level

/-- Only a level that is named can be above `debug` when the flag is on. -/
theorem Environment.mutes_iff {env : Environment} :
    env.Mutes ↔ (Settings.ofEnvironment env).debug = true ∧
      .debug < (Settings.ofEnvironment env).level := by
  have hflag : (Settings.ofEnvironment env).debug = env.debug.any Settings.isOn := by
    rw [Settings.ofEnvironment]
    cases env.debug <;> rfl
  have hlevel : (Settings.ofEnvironment env).level =
      (env.level.bind Level.parse?).getD
        (if (Settings.ofEnvironment env).debug then .debug else .warn) := rfl
  rw [Mutes, hlevel, hflag]
  refine and_congr_right fun hon => ?_
  rw [hon, if_pos rfl]
  cases env.level.bind Level.parse? with
  | none =>
    have hdebug : ¬Level.debug < .debug := by decide
    simp [hdebug]
  | some level => simp

/-- Whether a call sets the level or the debug flag, by hand or from an environment. -/
def Call.resets : Call → Bool
  | setLevel _ | setDebug _ | reread _ => true
  | _ => false

namespace Process

/-- Whether the debug flag is on and the level drops debug lines. -/
def Muted (p : Process) : Prop := p.logger.debug = true ∧ .debug < p.logger.level

/-- Whether a call mutes a process, muted or not before. -/
def Mutes (p : Process) : Call → Prop
  | .setLevel level => p.logger.debug = true ∧ .debug < level
  | .reread env => env.Mutes
  | _ => False

/-! ## Muted processes -/

/-- Turning the flag on lowers the level, and turning it off leaves nothing to be dropped. -/
theorem not_muted_setDebug (p : Process) (debug : Bool) : ¬(p.step (.setDebug debug)).Muted := by
  rintro ⟨hflag, hlevel⟩
  obtain rfl : debug = true := hflag
  have hlevel : .debug < if true ∧ .debug < p.logger.level then .debug else p.logger.level := hlevel
  split at hlevel
  · exact absurd hlevel (by decide)
  · simp_all

theorem muted_step_iff (p : Process) (c : Call) :
    (p.step c).Muted ↔ p.Mutes c ∨ c.resets = false ∧ p.Muted := by
  cases c with
  | setDebug debug => simp [not_muted_setDebug, Mutes, Call.resets]
  | setLevel level => simp [Mutes, Call.resets, Muted, step, logger, Logger.setLevel]
  | reread env =>
    -- A logger that has not started finds the environment when it does.
    obtain ⟨start, started⟩ := p
    cases started <;>
      simp [Mutes, Call.resets, Muted, Environment.mutes_iff, step, logger, Logger.start,
        Logger.reread]
  | _ => simp [Mutes, Call.resets, Muted, step, logger]

theorem after_append (p : Process) (before rest : List Call) :
    p.after (before ++ rest) = (p.after before).after rest := List.foldl_append

/-- A muted process was muted from the start, or by a call after which neither the level nor the
flag was set. -/
theorem exists_mutes_of_muted {p : Process} {calls : List Call} (h : (p.after calls).Muted) :
    p.Muted ∨ ∃ before c rest, calls = before ++ c :: rest ∧ (p.after before).Mutes c ∧
      ∀ d ∈ rest, d.resets = false := by
  -- From the end of the run: the last call mutes, or it leaves the process as muted as it was.
  induction calls using List.reverseRecOn with
  | nil => exact .inl h
  | append_singleton calls c ih =>
    rw [after_append] at h
    rcases (muted_step_iff _ c).mp h with hmutes | ⟨hkeeps, hmuted⟩
    · exact .inr ⟨calls, c, [], rfl, hmutes, by simp⟩
    · refine (ih hmuted).imp_right ?_
      rintro ⟨before, d, rest, rfl, hd, hrest⟩
      refine ⟨before, d, rest ++ [c], by simp, hd, ?_⟩
      intro e he
      rcases List.mem_append.mp he with he | he
      · exact hrest e he
      · rwa [List.mem_singleton.mp he]

/-! ## What is written -/

theorem isEnabled_debug_iff (lg : Logger) : lg.isEnabled .debug = true ↔ lg.level ≤ .debug := by
  simp [Logger.isEnabled]

/-- The debug flag is asked beforehand, and does not count when the line is written. -/
theorem written_debug (p : Process) (now : Stamp) (target message : String) :
    p.written (.report ⟨now, .debug, target, message⟩) =
      if p.logger.level ≤ .debug then p.logger.line now .debug target message ++ "\n" else "" := by
  have hwrite : p.written (.report ⟨now, .debug, target, message⟩) =
      p.logger.write now .debug target message :=
    reportAt_eq_write p.logger now .debug target message
  rw [hwrite, Logger.write]
  simp only [isEnabled_debug_iff]

theorem written_debug_ne_empty_iff (p : Process) (now : Stamp) (target message : String) :
    p.written (.report ⟨now, .debug, target, message⟩) ≠ "" ↔ p.logger.level ≤ .debug := by
  rw [written_debug]
  split
  · next h => simp [h]
  · next h => simp [h]

/-- Asking for debug lines by the flag or by the level differs from getting them in the muted
processes only. -/
theorem le_debug_iff_asks_iff_not_muted (p : Process) :
    (p.logger.level ≤ .debug ↔ p.logger.debug = true ∨ p.logger.isEnabled .debug = true) ↔
      ¬p.Muted := by
  rw [isEnabled_debug_iff, Muted, ← Level.not_le_iff]
  tauto

/-- In every state that calls lead to, a debug line is written if and only if the level lets it
through, and so are the debug lines of the library itself. That the flag asks for it as well makes
no difference, so what the flag promises holds in all states but the muted ones. Setting the flag
leads to none of these: they come from an environment, or from a level that is set while the flag is
on, and last until the level or the flag is set. -/
theorem written_debug_after (env : Environment) (calls : List Call) (now : Stamp)
    (target message : String) :
    let start : Process := { environment := env }
    let p := start.after calls
    let written := p.written (.report ⟨now, .debug, target, message⟩)
    written = (if p.logger.level ≤ .debug then p.logger.line now .debug target message ++ "\n"
        else "") ∧
      (∀ clock events, (p.logged (reports clock events)).map Entry.event =
        if p.logger.level ≤ .debug then events else []) ∧
      ((written ≠ "" ↔ p.logger.debug = true ∨ p.logger.isEnabled .debug = true) ↔ ¬p.Muted) ∧
      (∀ debug, ¬(p.step (.setDebug debug)).Muted) ∧
      (p.Muted → env.Mutes ∨ ∃ before c rest, calls = before ++ c :: rest ∧
        (start.after before).Mutes c ∧ ∀ d ∈ rest, d.resets = false) := by
  intro start p written
  refine ⟨p.written_debug now target message, ?_, ?_, p.not_muted_setDebug, ?_⟩
  · intro clock events
    rw [logged_reports]
    simp only [isEnabled_debug_iff]
  · rw [written_debug_ne_empty_iff]
    exact p.le_debug_iff_asks_iff_not_muted
  · intro h
    exact (exists_mutes_of_muted h).imp_left Environment.mutes_iff.mpr

/-- The flag asks for a debug line that is not written, where the environment names a level beside
the flag, and where a level is set after the flag. -/
theorem debug_flag_not_written :
    let line : Call := .report ⟨⟨"", ""⟩, .debug, "form", "checked"⟩
    let named : Process := { environment := { debug := some "1", level := some "warn" } }
    let raised : Process := after { environment := {} } [.setDebug true, .setLevel .error]
    (named.logger.debug = true ∧ named.written line = "") ∧
      (raised.logger.debug = true ∧ raised.written line = "") := by
  decide

end Process

end FormCheck.Log
