/-!
# Error logs

## Main definitions

* `ErrorLog`: the messages of one run, in the order in which they arose.
-/

namespace FormCheck

structure ErrorLog where
  errors : List String := []
deriving DecidableEq, Repr

namespace ErrorLog

/-- Whether there is a message. -/
def fails (l : ErrorLog) : Bool := !l.errors.isEmpty

/-- The first message, or the empty text. -/
def firstError (l : ErrorLog) : String := l.errors.headD ""

def push (l : ErrorLog) (message : String) : ErrorLog := ⟨l.errors ++ [message]⟩

def extend (l : ErrorLog) (messages : List String) : ErrorLog := ⟨l.errors ++ messages⟩

def size (l : ErrorLog) : Nat := l.errors.length

def isEmpty (l : ErrorLog) : Bool := l.errors.isEmpty

/-- Each message on a line of its own. -/
def text (l : ErrorLog) : String := String.join (l.errors.map (· ++ "\n"))

@[simp] theorem errors_push (l : ErrorLog) (message : String) :
    (l.push message).errors = l.errors ++ [message] := rfl

@[simp] theorem errors_extend (l : ErrorLog) (messages : List String) :
    (l.extend messages).errors = l.errors ++ messages := rfl

theorem fails_iff {l : ErrorLog} : l.fails = true ↔ l.errors ≠ [] := by
  simp [fails]

end ErrorLog

end FormCheck
