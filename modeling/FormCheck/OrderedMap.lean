/-!
# Maps in insertion order

A map from names to values that remembers the order in which the names came. Inserting a name
again replaces its value and keeps its place.

## Main definitions

* `OrderedMap`: a list of entries in which no name occurs twice.
* `OrderedMap.insert`, `OrderedMap.erase`, `OrderedMap.ofList`, `OrderedMap.get?`.
* Equality `==` compares the mappings and ignores the order.
-/

namespace FormCheck

/-! ## Lists of entries -/

namespace Entries

variable {α : Type}

/-- Replaces the value of the first entry for `name`, or adds an entry at the end. -/
def insert (name : String) (value : α) : List (String × α) → List (String × α)
  | [] => [(name, value)]
  | e :: es => if e.1 = name then (name, value) :: es else e :: insert name value es

def get? (name : String) : List (String × α) → Option α
  | [] => none
  | e :: es => if e.1 = name then some e.2 else get? name es

def erase (name : String) (es : List (String × α)) : List (String × α) :=
  es.filter fun e => e.1 != name

def names (es : List (String × α)) : List String := es.map Prod.fst

@[simp] theorem names_nil : names ([] : List (String × α)) = [] := rfl

@[simp] theorem names_cons (e : String × α) (es : List (String × α)) :
    names (e :: es) = e.1 :: names es := rfl

theorem names_insert (name : String) (value : α) (es : List (String × α)) :
    names (insert name value es) =
      if name ∈ names es then names es else names es ++ [name] := by
  induction es with
  | nil => rfl
  | cons e es ih =>
    by_cases h : e.1 = name
    · simp [insert, h]
    · have h' : ¬ name = e.1 := fun hn => h hn.symm
      by_cases hm : name ∈ names es <;> simp [insert, h, h', ih, hm]

theorem nodup_names_insert {name : String} {value : α} {es : List (String × α)}
    (h : (names es).Nodup) : (names (insert name value es)).Nodup := by
  rw [names_insert]
  split
  · exact h
  · rename_i hm
    exact List.nodup_append.mpr
      ⟨h, by simp, fun a ha b hb hab => hm (by simp_all)⟩

theorem names_erase (name : String) (es : List (String × α)) :
    names (erase name es) = (names es).filter (· != name) := by
  simp [names, erase, List.filter_map, Function.comp_def]

theorem nodup_names_erase {name : String} {es : List (String × α)}
    (h : (names es).Nodup) : (names (erase name es)).Nodup := by
  rw [names_erase]
  exact h.filter _

theorem get?_insert (name other : String) (value : α) (es : List (String × α)) :
    get? other (insert name value es) = if other = name then some value else get? other es := by
  induction es with
  | nil => by_cases h : other = name <;> simp [insert, get?, h, Ne.symm]
  | cons e es ih =>
    by_cases h : e.1 = name
    · by_cases ho : other = name
      · simp [insert, get?, h, ho]
      · simp [insert, get?, h, ho, Ne.symm ho]
    · by_cases ho : e.1 = other
      · have : ¬ other = name := fun hn => h (ho.trans hn)
        simp [insert, get?, ho, this]
      · simp [insert, get?, h, ho, ih]

theorem get?_erase (name other : String) (es : List (String × α)) :
    get? other (erase name es) = if other = name then none else get? other es := by
  induction es with
  | nil => simp [erase, get?]
  | cons e es ih =>
    by_cases h : e.1 = name
    · by_cases ho : other = name
      · simp_all [erase]
      · have : ¬ e.1 = other := fun hn => ho (hn ▸ h)
        simp_all [erase, get?]
    · by_cases ho : e.1 = other
      · have : ¬ other = name := fun hn => h (ho.trans hn)
        simp [erase, get?, ho, this]
      · simp_all [erase, get?]

end Entries

/-! ## Maps -/

structure OrderedMap (α : Type) where
  entries : List (String × α) := []
  nodup : (Entries.names entries).Nodup := by simp

namespace OrderedMap

variable {α : Type}

def empty : OrderedMap α := {}

instance : EmptyCollection (OrderedMap α) := ⟨empty⟩

instance : Inhabited (OrderedMap α) := ⟨empty⟩

def insert (m : OrderedMap α) (name : String) (value : α) : OrderedMap α where
  entries := Entries.insert name value m.entries
  nodup := Entries.nodup_names_insert m.nodup

def erase (m : OrderedMap α) (name : String) : OrderedMap α where
  entries := Entries.erase name m.entries
  nodup := Entries.nodup_names_erase m.nodup

/-- Inserts the pairs one after the other into an empty map. -/
def ofList (pairs : List (String × α)) : OrderedMap α :=
  pairs.foldl (fun m e => m.insert e.1 e.2) empty

def get? (m : OrderedMap α) (name : String) : Option α := Entries.get? name m.entries

def contains (m : OrderedMap α) (name : String) : Bool := (m.get? name).isSome

def names (m : OrderedMap α) : List String := Entries.names m.entries

def size (m : OrderedMap α) : Nat := m.entries.length

def isEmpty (m : OrderedMap α) : Bool := m.entries.isEmpty

/-- Maps are equal if they have equally many names and the first gives every name the value that
the second gives it. -/
instance [BEq α] : BEq (OrderedMap α) :=
  ⟨fun m n => m.size == n.size && m.entries.all fun e => n.get? e.1 == some e.2⟩

@[simp] theorem get?_empty (name : String) : (empty : OrderedMap α).get? name = none := rfl

theorem get?_insert (m : OrderedMap α) (name other : String) (value : α) :
    (m.insert name value).get? other = if other = name then some value else m.get? other :=
  Entries.get?_insert name other value m.entries

theorem get?_erase (m : OrderedMap α) (name other : String) :
    (m.erase name).get? other = if other = name then none else m.get? other :=
  Entries.get?_erase name other m.entries

theorem names_insert (m : OrderedMap α) (name : String) (value : α) :
    (m.insert name value).names =
      if name ∈ m.names then m.names else m.names ++ [name] :=
  Entries.names_insert name value m.entries

theorem names_erase (m : OrderedMap α) (name : String) :
    (m.erase name).names = m.names.filter (· != name) :=
  Entries.names_erase name m.entries

end OrderedMap

end FormCheck
