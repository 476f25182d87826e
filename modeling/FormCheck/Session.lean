import FormCheck.Engine

/-!
# Sessions

A session keeps a form's fields, rules and labels together with the validators and the errors of
the last run. Errors that a caller adds by hand are kept across runs and come after those of the
rules.

## Main definitions

* `Session.new`, `Session.addError`, `Session.validate`, `Session.fails`.
-/

namespace FormCheck

structure Session where
  fields : Fields
  rules : Rules
  labels : Labels := {}
  engine : Engine
  log : ErrorLog := {}
  manualErrors : List String := []

namespace Session

/-- A session with the built-in validators and no labels. -/
def new (fields : Fields) (rules : Rules) : Traced Session :=
  Engine.builtin.map fun engine => { fields, rules, engine }

def setLabels (s : Session) (labels : Labels) : Session := { s with labels }

/-- Replaces all validators. -/
def setRegistry (s : Session) (registry : Registry) : Session :=
  { s with engine := ⟨registry⟩ }

def register (s : Session) (name : String) (v : Validator) : Traced Session :=
  (s.engine.registry.register name v).map s.setRegistry

def remove (s : Session) (name : String) : Traced Session :=
  (s.engine.registry.remove name).map s.setRegistry

/-- Adds an error that no rule found. -/
def addError (s : Session) (message : String) : Session :=
  { s with
    log := s.log.push message
    manualErrors := s.manualErrors ++ [message] }

/-- Runs the rules. The new log replaces the old one; after a fault the old one stays. -/
def validate (s : Session) : Traced (Except Fault ErrorLog × Session) :=
  (s.engine.run s.fields s.rules s.labels).map fun
    | .error fault => (.error fault, s)
    | .ok found =>
      let log := found.extend s.manualErrors
      (.ok log, { s with log })

/-- Runs the rules and tells whether there is an error. -/
def fails (s : Session) : Traced (Except Fault Bool × Session) :=
  s.validate.map fun (outcome, s) => (outcome.map ErrorLog.fails, s)

/-- The errors of the last run and those added since. -/
def errors (s : Session) : List String := s.log.errors

def firstError (s : Session) : String := s.log.firstError

def registry (s : Session) : Registry := s.engine.registry

end Session

end FormCheck
