import FormCheck.Proofs.Log.JsonLines

/-!
# Timestamps

Whether lines carry the time is read from the environment when the logger starts, and stays as it
was read. Lines for people follow the setting. JSON lines carry the time in any case.

## Main definitions

* `Log.Entry.body`: a line for people without its time.
* `Log.CarriesTime`: whether a line carries the time of its entry.

## Main results

* `Settings.timestamps_ofEnvironment_iff`: which environments ask for timestamps.
* `Log.carriesTime_line_iff`: which lines carry the time.
-/

namespace FormCheck.Log

/-- Timestamps are left out if the variable is set to something that does not turn a switch on. -/
theorem Settings.timestamps_ofEnvironment_iff (env : Environment) :
    (ofEnvironment env).timestamps = true ↔
      ∀ value, env.timestamps = some value →
        value = "1" ∨ value.toList.map Char.toLower = "true".toList := by
  have hsetting : (ofEnvironment env).timestamps = (env.timestamps.map isOn).getD true := rfl
  have hfold : ∀ value, foldCase value = "true" ↔
      value.toList.map Char.toLower = "true".toList := by
    intro value
    rw [← String.toList_inj, foldCase, String.toList_ofList]
  rw [hsetting]
  cases env.timestamps with
  | none => simp
  | some value => simp [isOn, hfold]

/-! ## One line -/

/-- A line for people without its time. -/
def Entry.body (r : Entry) : String :=
  Logger.padName r.level.name ++ " " ++
    (if r.target.isEmpty then "" else "[" ++ r.target ++ "] ") ++ r.message

/-- Whether a line carries the time of its entry: a line for people in front of all else, a JSON
object as a member. -/
def CarriesTime (layout : Layout) (line : String) (r : Entry) : Prop :=
  match layout with
  | .pretty => line = r.now.localTime ++ " " ++ r.body
  | .json =>
    ∃ members, Json.parse? line = some (.object members) ∧
      ("timestamp", .string r.now.universalTime) ∈ members

theorem carriesTime_jsonLine (r : Entry) : CarriesTime .json r.jsonLine r := by
  have hvalue := (shows_jsonLine r).value
  rw [String.ofList_toList] at hvalue
  exact ⟨_, hvalue, by simp⟩

theorem line_of_pretty {lg : Logger} (h : lg.settings.layout = .pretty) (r : Entry) :
    r.line lg = (if lg.settings.timestamps then r.now.localTime ++ " " else "") ++ r.body := by
  simp only [Entry.line, Logger.line, h, Logger.prettyLine, Entry.body, String.append_assoc]

theorem line_of_json {lg : Logger} (h : lg.settings.layout = .json) (r : Entry) :
    r.line lg = r.jsonLine := by
  rw [Entry.line, Logger.line, h, Entry.jsonLine]

/-- A line without its time is too short to carry it. -/
theorem not_carriesTime_body (r : Entry) : ¬CarriesTime .pretty r.body r := by
  intro h
  have hlength := congrArg String.length (h : r.body = r.now.localTime ++ " " ++ r.body)
  simp only [String.length_append] at hlength
  have hblank : " ".length = 1 := rfl
  omega

theorem carriesTime_line_iff (lg : Logger) (r : Entry) :
    CarriesTime lg.settings.layout (r.line lg) r ↔
      lg.settings.layout = .json ∨ lg.settings.timestamps = true := by
  cases hlayout : lg.settings.layout with
  | json =>
    rw [line_of_json hlayout]
    simp [carriesTime_jsonLine]
  | pretty =>
    rw [line_of_pretty hlayout]
    cases lg.settings.timestamps with
    | true => simp [CarriesTime]
    | false => simp [not_carriesTime_body]

/-! ## All lines of a process -/

namespace Process

theorem output_append (p : Process) (calls : List Call) (c : Call) :
    p.output (calls ++ [c]) = p.output calls ++ (p.after calls).written c := by
  induction calls generalizing p with
  | nil => simp [output, after]
  | cons d calls ih =>
    rw [List.cons_append, output, output, ih, String.append_assoc]
    rfl

theorem written_of_enabled? {p : Process} {c : Call} {r : Entry} (h : p.enabled? c = some r) :
    p.written c = r.line p.logger ++ "\n" := by
  rw [p.written_eq, h]
  simp

/-- Whatever a process asked of its logger before, the setting is what the environment said when the
logger started. A call writes one line if it is enabled, and nothing else. In JSON the line carries
the time, and for people it does so if and only if the setting asks for it. -/
theorem carriesTime_written_iff (env : Environment) (calls : List Call) (c : Call) :
    let start : Process := { environment := env }
    let p := start.after calls
    let config := p.logger.settings
    config = .ofEnvironment (env.atStart calls) ∧
      (config.timestamps = true ↔ ∀ value, (env.atStart calls).timestamps = some value →
        value = "1" ∨ value.toList.map Char.toLower = "true".toList) ∧
      start.output (calls ++ [c]) = start.output calls ++ p.written c ∧
      match p.enabled? c with
      | none => p.written c = ""
      | some r =>
        ∃ line, p.written c = line ++ "\n" ∧
          (CarriesTime config.layout line r ↔
            config.layout = .json ∨ config.timestamps = true) ∧
          (config.layout = .pretty ∧ config.timestamps = false → line = r.body) := by
  intro start p config
  have hconfig : config = .ofEnvironment (env.atStart calls) := settings_after env calls
  refine ⟨hconfig, ?_, output_append start calls c, ?_⟩
  · rw [hconfig]
    exact Settings.timestamps_ofEnvironment_iff _
  · cases h : p.enabled? c with
    | none =>
      rw [p.written_eq, h]
      rfl
    | some r =>
      refine ⟨r.line p.logger, written_of_enabled? h, carriesTime_line_iff p.logger r, ?_⟩
      rintro ⟨hlayout, hoff⟩
      have hoff : p.logger.settings.timestamps = false := hoff
      rw [line_of_pretty hlayout, hoff]
      exact String.empty_append

/-- The environment says that lines are to be written without the time, and a JSON line is written
with it. -/
theorem carriesTime_though_off :
    let p : Process := { environment := { layout := some "json", timestamps := some "0" } }
    let r : Entry := ⟨⟨"", "2024-01-01T00:00:00+00:00"⟩, .error, "form", "checked"⟩
    p.logger.settings.timestamps = false ∧
      ∃ line, p.written (.write r) = line ++ "\n" ∧
        CarriesTime p.logger.settings.layout line r := by
  intro p r
  have hlayout : p.logger.settings.layout = .json := by decide
  have henabled : p.enabled? (.write r) = some r := by decide
  exact ⟨by decide, r.line p.logger, written_of_enabled? henabled,
    (carriesTime_line_iff p.logger r).mpr (.inl hlayout)⟩

end Process

end FormCheck.Log
