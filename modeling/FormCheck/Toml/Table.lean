import FormCheck.Toml.DateTime

/-!
# TOML tables

## Main definitions

* `Toml.Value`: values. Of numbers and booleans nothing is kept.
* `Toml.Table`: tables, whose entries stay in order.
* `Table.within`: changes the table at the end of a path.
* `Table.addEntry`, `Table.openTable`, `Table.openArrayTable`: the three ways in which a document
  adds to a table.
-/

namespace FormCheck.Toml

/-- How a table came about, which decides what may still be added to it. -/
inductive Origin where
  /-- By a header of its own. -/
  | header
  /-- On the way to the table of a header. -/
  | implied
  /-- On the way to the entry of a dotted key. -/
  | dotted
  /-- Between braces. -/
  | inline
deriving DecidableEq, Repr

inductive Value where
  | string (s : String)
  /-- A number or a boolean. -/
  | scalar
  | dateTime (t : DateTime)
  /-- An array written between brackets, or one whose items are tables with headers. -/
  | array (ofTables : Bool) (items : List Value)
  | table (origin : Origin) (entries : List (String × Value))
deriving Repr

structure Table where
  origin : Origin
  entries : List (String × Value) := []
deriving Repr

namespace Table

def toValue (t : Table) : Value := .table t.origin t.entries

def get? (t : Table) (key : String) : Option Value := t.entries.lookup key

/-- Adds an entry at the end. -/
def append (t : Table) (key : String) (v : Value) : Table :=
  { t with entries := t.entries ++ [(key, v)] }

/-- Gives a key that the table has another value. -/
def replace (t : Table) (key : String) (v : Value) : Table :=
  { t with entries := t.entries.map fun e => if e.1 = key then (key, v) else e }

/-- Changes the table at the end of a path. Tables that are missing on the way are made, `dotted`
if the path belongs to a dotted key and implied if it belongs to a header. The path may lead
through the last item of an array of tables, but not through an inline table; a dotted key leads
through tables without a header only. -/
def within (dotted : Bool) : List String → (Table → Option Table) → Table → Option Table
  | [], f, t => f t
  | key :: path, f, t =>
    match t.get? key with
    | none => do
      let child ← within dotted path f { origin := if dotted then .dotted else .implied }
      return t.append key child.toValue
    | some (.table origin entries) =>
      if origin = .inline ∨ dotted ∧ origin = .header then none
      else do
        let child ← within dotted path f ⟨origin, entries⟩
        return t.replace key child.toValue
    | some (.array true items) =>
      match items.getLast? with
      | some (.table origin entries) => do
        let child ← within dotted path f ⟨origin, entries⟩
        return t.replace key (.array true (items.dropLast ++ [child.toValue]))
      | _ => none
    | some _ => none

/-- Adds an entry that the table does not have yet. A dotted key adds to tables of dotted keys
only, and no other key does. -/
def addNew (dotted : Bool) (key : String) (v : Value) (t : Table) : Option Table :=
  if (t.origin == .dotted) == dotted && (t.get? key).isNone then some (t.append key v) else none

/-- Adds the entry of a key with dots. -/
def addEntry : List String → Value → Table → Option Table
  | path, v, t =>
    match path.getLast? with
    | none => none
    | some key => within true path.dropLast (addNew (decide (1 < path.length)) key v) t

/-- Opens the table of a header, which must be new or implied. -/
def openTable (path : List String) (t : Table) : Option Table := do
  let key ← path.getLast?
  within false path.dropLast (fun parent =>
    match parent.get? key with
    | none => some (parent.append key (.table .header []))
    | some (.table .implied entries) => some (parent.replace key (.table .header entries))
    | some _ => none) t

/-- Opens another table of the array of a header, which must be new or an array of tables. -/
def openArrayTable (path : List String) (t : Table) : Option Table := do
  let key ← path.getLast?
  within false path.dropLast (fun parent =>
    match parent.get? key with
    | none => some (parent.append key (.array true [.table .header []]))
    | some (.array true items) =>
      some (parent.replace key (.array true (items ++ [.table .header []])))
    | some _ => none) t

end Table

end FormCheck.Toml
