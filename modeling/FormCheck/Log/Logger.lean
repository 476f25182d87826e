import FormCheck.Json.Printer
import FormCheck.Log.Settings
import FormCheck.Trace

/-!
# Loggers

A logger reads its settings once, when it starts. The level and the debug flag can change later;
the layout and the timestamps stay as they were read. What a logger writes is a text, and the
times in it come from the caller.

## Main definitions

* `Log.Logger`: the settings and the two values that change.
* `Logger.isEnabled`: whether a line of a level is written.
* `Logger.write`: writes a line. `Logger.report` and `Logger.reportDebug` ask before they write.
* `Logger.writeEvents`: writes the events of a trace as debug lines.
-/

namespace FormCheck.Log

/-- The time at which a line is written. -/
structure Stamp where
  /-- The local time, as a pretty line shows it. -/
  localTime : String
  /-- The universal time, as a JSON line shows it. -/
  universalTime : String
deriving DecidableEq, Repr

structure Logger where
  settings : Settings := {}
  level : Level := settings.level
  debug : Bool := settings.debug
deriving DecidableEq, Repr

namespace Logger

/-- A logger that starts in an environment. -/
def start (env : Environment) : Logger := { settings := .ofEnvironment env }

/-! ## Changing the level -/

def setLevel (lg : Logger) (level : Level) : Logger := { lg with level }

/-- Turning the debug flag on lowers the level to `debug`; turning it off leaves the level. -/
def setDebug (lg : Logger) (debug : Bool) : Logger :=
  { lg with debug, level := if debug ∧ .debug < lg.level then .debug else lg.level }

/-- Reads an environment again: level and debug flag follow it, the settings of the logger do
not. -/
def reread (lg : Logger) (env : Environment) : Logger :=
  let settings := Settings.ofEnvironment env
  { lg with level := settings.level, debug := settings.debug }

/-! ## Writing -/

def isEnabled (lg : Logger) (level : Level) : Bool := level ≠ .off ∧ lg.level ≤ level

/-- A name on five places. -/
def padName (name : String) : String :=
  name ++ String.ofList (List.replicate (5 - name.length) ' ')

def prettyLine (timestamps : Bool) (now : Stamp) (level : Level) (target message : String) :
    String :=
  (if timestamps then now.localTime ++ " " else "") ++ padName level.name ++ " " ++
    (if target.isEmpty then "" else "[" ++ target ++ "] ") ++ message

def jsonLine (now : Stamp) (level : Level) (target message : String) : String :=
  (Json.object [("timestamp", .string now.universalTime), ("level", .string level.name),
    ("target", .string target), ("message", .string message)]).compactText

/-- A line of the logger's layout, without its end. -/
def line (lg : Logger) (now : Stamp) (level : Level) (target message : String) : String :=
  match lg.settings.layout with
  | .pretty => prettyLine lg.settings.timestamps now level target message
  | .json => jsonLine now level target message

/-- What the logger writes: a line, or nothing if the level is not enabled. -/
def write (lg : Logger) (now : Stamp) (level : Level) (target message : String) : String :=
  if lg.isEnabled level then lg.line now level target message ++ "\n" else ""

/-- Writes a line, unless its level is found to be off beforehand. -/
def report (lg : Logger) (now : Stamp) (level : Level) (target message : String) : String :=
  if lg.isEnabled level then lg.write now level target message else ""

/-- Writes a debug line. The debug flag counts beforehand as well as the level. -/
def reportDebug (lg : Logger) (now : Stamp) (target message : String) : String :=
  if lg.debug || lg.isEnabled .debug then lg.write now .debug target message else ""

/-- Reports a line in the way of its level. -/
def reportAt (lg : Logger) (now : Stamp) (level : Level) (target message : String) : String :=
  match level with
  | .debug => lg.reportDebug now target message
  | level => lg.report now level target message

def writeEvents (lg : Logger) (now : Stamp) (events : List Event) : String :=
  String.join (events.map fun e => lg.reportDebug now e.target e.message)

end Logger

end FormCheck.Log
