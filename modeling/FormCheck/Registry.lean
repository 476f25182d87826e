import FormCheck.OrderedMap
import FormCheck.Text.Quoted
import FormCheck.Validator.Builtin

/-!
# Registries

A registry holds the validators that rules can name. It is a plain value: changing one registry
leaves its copies alone.

## Main definitions

* `Registry.register`, `Registry.take`, `Registry.remove`, `Registry.get?`.
* `Registry.names`: the registered names, sorted by code points.
* `Registry.builtin`: the registry of the built-in validators.
-/

namespace FormCheck

structure Registry where
  validators : OrderedMap Validator := .empty

namespace Registry

/-- The part of the library that the events of a registry come from. -/
def eventTarget : String := "gatekeep_validation::registry"

def empty : Registry := {}

instance : Inhabited Registry := ⟨empty⟩

def get? (r : Registry) (name : String) : Option Validator := r.validators.get? name

def contains (r : Registry) (name : String) : Bool := r.validators.contains name

def size (r : Registry) : Nat := r.validators.size

def isEmpty (r : Registry) : Bool := r.validators.isEmpty

def names (r : Registry) : List String :=
  r.validators.names.mergeSort fun a b => decide (a ≤ b)

/-- Registers a validator under a name, in place of the one that was there. -/
def register (r : Registry) (name : String) (v : Validator) : Traced Registry where
  value := ⟨r.validators.insert name v⟩
  events :=
    [⟨eventTarget,
      (if r.contains name then "Replaced" else "Registered") ++ " validator '" ++ name ++ "'"⟩]

/-- Removes the validator of a name, if there is one, and hands it over. -/
def take (r : Registry) (name : String) : Traced (Option Validator × Registry) where
  value := (r.get? name, ⟨r.validators.erase name⟩)
  events := if r.contains name then [⟨eventTarget, "Removed validator '" ++ name ++ "'"⟩] else []

/-- Removes the validator of a name, if there is one. -/
def remove (r : Registry) (name : String) : Traced Registry := (r.take name).map Prod.snd

/-- Registers validators one after the other. -/
def registerAll (r : Registry) : List (String × Validator) → Traced Registry
  | [] => { value := r }
  | e :: es => (r.register e.1 e.2).andThen fun r => r.registerAll es

/-- The registry of the built-in validators. -/
def builtin : Traced Registry :=
  (empty.registerAll Validator.builtins).andThen fun r =>
    { value := r
      events := [⟨eventTarget, "Registered " ++ toString r.size ++ " built-in validators"⟩] }

/-- The diagnostic text of a registry: the names in order. -/
def debugText (r : Registry) : String :=
  "Registry \x7b validators: [" ++ ", ".intercalate (r.names.map Text.quoted) ++ "] \x7d"

theorem get?_register (r : Registry) (name other : String) (v : Validator) :
    (r.register name v).value.get? other = if other = name then some v else r.get? other :=
  OrderedMap.get?_insert r.validators name other v

theorem get?_remove (r : Registry) (name other : String) :
    (r.remove name).value.get? other = if other = name then none else r.get? other :=
  OrderedMap.get?_erase r.validators name other

end Registry

end FormCheck
