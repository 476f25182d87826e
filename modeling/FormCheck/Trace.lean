/-!
# Computations with a trace

What the library reports while it works is data: a computation returns its value together with
the events it met, oldest first. A logger decides later what becomes of them.

## Main definitions

* `Event`: a diagnostic message and the part of the library that it comes from.
* `Traced`: a value with the events met on the way to it.
-/

namespace FormCheck

structure Event where
  /-- The part of the library that the event comes from. -/
  target : String
  message : String
deriving DecidableEq, Repr

structure Traced (α : Type) where
  value : α
  events : List Event := []

namespace Traced

variable {α β : Type}

/-- Continues with the value; the events of the continuation come after those met before. -/
def andThen (t : Traced α) (f : α → Traced β) : Traced β where
  value := (f t.value).value
  events := t.events ++ (f t.value).events

def map (f : α → β) (t : Traced α) : Traced β where
  value := f t.value
  events := t.events

@[simp] theorem value_andThen (t : Traced α) (f : α → Traced β) :
    (t.andThen f).value = (f t.value).value := rfl

@[simp] theorem events_andThen (t : Traced α) (f : α → Traced β) :
    (t.andThen f).events = t.events ++ (f t.value).events := rfl

@[simp] theorem value_map (f : α → β) (t : Traced α) : (t.map f).value = f t.value := rfl

@[simp] theorem events_map (f : α → β) (t : Traced α) : (t.map f).events = t.events := rfl

end Traced

end FormCheck
