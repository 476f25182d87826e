import FormCheck.Log.Level

/-!
# Logger settings

## Main definitions

* `Log.Environment`: the environment variables that a logger looks at.
* `Log.Settings`: what they say, with defaults for what they leave open.
* `Settings.ofEnvironment`: reads the variables.
-/

namespace FormCheck.Log

/-- The variables that a logger looks at; `none` stands for one that is not set. -/
structure Environment where
  debug : Option String := none
  level : Option String := none
  layout : Option String := none
  timestamps : Option String := none
deriving DecidableEq, Repr

namespace Environment

def debugName : String := "GATEKEEP_DEBUG"

def levelName : String := "GATEKEEP_LOG_LEVEL"

def layoutName : String := "GATEKEEP_LOG_FORMAT"

def timestampsName : String := "GATEKEEP_LOG_TIMESTAMPS"

/-- The environment with the listed variables and values. -/
def ofVariables (values : List (String × String)) : Environment where
  debug := values.lookup debugName
  level := values.lookup levelName
  layout := values.lookup layoutName
  timestamps := values.lookup timestampsName

end Environment

structure Settings where
  debug : Bool := false
  level : Level := .warn
  layout : Layout := .json
  timestamps : Bool := true
deriving DecidableEq, Repr

namespace Settings

/-- A switch is on if its variable is `1` or, in letters of either case, `true`. -/
def isOn (value : String) : Bool := value == "1" || foldCase value == "true"

/-- A variable that is not set or cannot be read leaves the default. Without a level, the debug
switch lowers it to `debug`. -/
def ofEnvironment (env : Environment) : Settings :=
  let standard : Settings := {}
  let debug := (env.debug.map isOn).getD standard.debug
  { debug
    level := (env.level.bind Level.parse?).getD (if debug then .debug else standard.level)
    layout := (env.layout.bind Layout.parse?).getD standard.layout
    timestamps := (env.timestamps.map isOn).getD standard.timestamps }

end Settings

end FormCheck.Log
