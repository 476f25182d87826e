import FormCheck.ErrorLog
import FormCheck.Fault
import FormCheck.Fields
import FormCheck.Invocation
import FormCheck.Registry

/-!
# Checking fields against rules

A run takes the rules in order and, inside each rule expression, the invocations in order. Every
invocation whose validator rejects the field's value adds one message. An invocation that names
no validator ends the run with a fault, and the messages collected before it are lost.

## Main definitions

* `Engine.runInvocations`: the invocations of one field.
* `Engine.runRules`: the rules of many fields.
* `Engine.run`: a whole run, which yields an error log or a fault.
-/

namespace FormCheck

structure Engine where
  registry : Registry := .empty
deriving Inhabited

namespace Engine

/-- The part of the library that the events of a run come from. -/
def eventTarget : String := "gatekeep_validation::engine"

def unresolvedEvent (field : String) (i : Invocation) : Event :=
  ⟨eventTarget, "Rule '" ++ i.name ++ "' on field '" ++ field ++ "' names no registered validator"⟩

def failedEvent (field : String) (i : Invocation) : Event :=
  ⟨eventTarget, "Field '" ++ field ++ "' failed rule '" ++ i.text ++ "'"⟩

def closingEvent (rules errors : Nat) : Event :=
  ⟨eventTarget, "Validated " ++ toString rules ++ " fields, " ++ toString errors ++ " errors"⟩

/-- The messages of the invocations that a field's value fails. -/
def runInvocations (e : Engine) (field label : String) (value : Option String) :
    List Invocation → Traced (Except Fault (List String))
  | [] => { value := .ok [] }
  | i :: is =>
    match e.registry.get? i.name with
    | none =>
      { value := .error (.unresolvedValidator field i.name)
        events := [unresolvedEvent field i] }
    | some v =>
      let rest := e.runInvocations field label value is
      if v.accepts value i.modifier then
        { value := rest.value
          events := v.events value i.modifier ++ rest.events }
      else
        { value := rest.value.map (v.message label i.modifier :: ·)
          events := v.events value i.modifier ++ failedEvent field i :: rest.events }

/-- The messages of all fields that have a rule. -/
def runRules (e : Engine) (fields : Fields) (labels : Labels) :
    List (String × String) → Traced (Except Fault (List String))
  | [] => { value := .ok [] }
  | (field, expression) :: rules =>
    let here :=
      e.runInvocations field (labels.labelFor field) (fields.get? field)
        (Invocation.parse expression)
    match here.value with
    | .error _ => here
    | .ok messages =>
      let rest := e.runRules fields labels rules
      { value := rest.value.map (messages ++ ·)
        events := here.events ++ rest.events }

def run (e : Engine) (fields : Fields) (rules : Rules) (labels : Labels) :
    Traced (Except Fault ErrorLog) :=
  (e.runRules fields labels rules.toList).andThen fun
    | .error fault => { value := .error fault }
    | .ok messages =>
      { value := .ok ⟨messages⟩
        events := [closingEvent rules.size messages.length] }

/-- The engine of the built-in validators. -/
def builtin : Traced Engine := Registry.builtin.map Engine.mk

end Engine

end FormCheck
