import FormCheck.OrderedMap

/-!
# Fields, rules and labels

The three collections that describe a form, each keyed by field name in insertion order.

## Main definitions

* `Fields`: the values to check. A field may be declared without a value.
* `Rules`: the rule expression of each field, in the order in which the fields are checked.
* `Labels`: the names that messages use in place of field names.
-/

namespace FormCheck

/-! ## Fields -/

structure Fields where
  values : OrderedMap (Option String) := .empty
deriving BEq

namespace Fields

/-- Sets a field; `none` declares it without a value. -/
def insert (f : Fields) (name : String) (value : Option String) : Fields :=
  ⟨f.values.insert name value⟩

/-- Adds a field with a value. -/
def add (f : Fields) (name value : String) : Fields := f.insert name (some value)

/-- Declares a field without a value. -/
def addAbsent (f : Fields) (name : String) : Fields := f.insert name none

def ofList (pairs : List (String × Option String)) : Fields := ⟨.ofList pairs⟩

/-- The value of a field. A field that is missing and one that has no value look the same. -/
def get? (f : Fields) (name : String) : Option String := (f.values.get? name).join

/-- Whether the field was declared, with or without a value. -/
def contains (f : Fields) (name : String) : Bool := f.values.contains name

def toList (f : Fields) : List (String × Option String) := f.values.entries

def size (f : Fields) : Nat := f.values.size

def isEmpty (f : Fields) : Bool := f.values.isEmpty

end Fields

/-! ## Rules -/

structure Rules where
  expressions : OrderedMap String := .empty
deriving BEq

namespace Rules

def insert (r : Rules) (field expression : String) : Rules :=
  ⟨r.expressions.insert field expression⟩

def ofList (pairs : List (String × String)) : Rules := ⟨.ofList pairs⟩

def get? (r : Rules) (field : String) : Option String := r.expressions.get? field

def toList (r : Rules) : List (String × String) := r.expressions.entries

def size (r : Rules) : Nat := r.expressions.size

def isEmpty (r : Rules) : Bool := r.expressions.isEmpty

end Rules

/-! ## Labels -/

structure Labels where
  names : OrderedMap String := .empty
deriving BEq

namespace Labels

def insert (l : Labels) (field label : String) : Labels := ⟨l.names.insert field label⟩

def ofList (pairs : List (String × String)) : Labels := ⟨.ofList pairs⟩

/-- The label of a field, or its own name if it has none. -/
def labelFor (l : Labels) (field : String) : String := (l.names.get? field).getD field

def toList (l : Labels) : List (String × String) := l.names.entries

def isEmpty (l : Labels) : Bool := l.names.isEmpty

end Labels

end FormCheck
