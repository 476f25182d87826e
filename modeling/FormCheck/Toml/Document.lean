import FormCheck.Toml.Scalar

/-!
# TOML documents

A document is a sequence of statements: headers and entries. It denotes a table, to which the
statements add one after the other.

## Main definitions

* `Toml.takeValue`: takes a value.
* `Toml.Statement`: headers and entries, with `Toml.statements?` for those of a text.
* `Toml.parse?`: the table of a document.
-/

namespace FormCheck.Toml

/-- Values may not be nested deeper, and keys may not have more parts. -/
def nestingLimit : Nat := 80

/-! ## Values -/

mutual

/-- Takes a value in which at most `depth` collections are nested. -/
def takeValueWithin : Nat → Nat → List Char → Option (Value × List Char)
  | 0, _, _ => none
  | fuel + 1, depth, s =>
    match s with
    | '[' :: s =>
      if depth = 0 then none
      else (takeItems fuel (depth - 1) s).map fun (vs, rest) => (.array false vs, rest)
    | '{' :: s =>
      if depth = 0 then none
      else
        (takeInlineEntries fuel (depth - 1) { origin := .inline } s).map fun (t, rest) =>
          (t.toValue, rest)
    | '"' :: _ | '\x27' :: _ =>
      (takeString s).map fun (t, rest) => (.string (String.ofList t), rest)
    | s => takeScalar s

/-- Takes the items of an array up to its closing bracket. -/
def takeItems : Nat → Nat → List Char → Option (List Value × List Char)
  | 0, _, _ => none
  | fuel + 1, depth, s => do
    match ← skipTrivia false s with
    | ']' :: s => return ([], s)
    | s => do
      let (v, s) ← takeValueWithin fuel depth s
      match ← skipTrivia false s with
      | ']' :: s => return ([v], s)
      | ',' :: s => do
        let (vs, s) ← takeItems fuel depth s
        return (v :: vs, s)
      | _ => none

/-- Takes the entries of an inline table up to its closing brace and adds them to a table. Lines
may end anywhere but inside a key. -/
def takeInlineEntries : Nat → Nat → Table → List Char → Option (Table × List Char)
  | 0, _, _, _ => none
  | fuel + 1, depth, t, s => do
    match ← skipTrivia false s with
    | '}' :: s => return (t, s)
    | s => do
      let (path, s) ← takeKeyPath nestingLimit s
      let s ← takeChar '=' (← skipTrivia false s)
      let (v, s) ← takeValueWithin fuel depth (← skipTrivia false s)
      let t ← t.addEntry path v
      match ← skipTrivia false s with
      | '}' :: s => return (t, s)
      | ',' :: s => takeInlineEntries fuel depth t s
      | _ => none

end

/-- Takes a value. Two steps suffice for every character. -/
def takeValue (s : List Char) : Option (Value × List Char) :=
  takeValueWithin (2 * s.length + 2) nestingLimit s

/-! ## Statements -/

inductive Statement where
  /-- The header of a table. -/
  | table (path : List String)
  /-- The header of a table in an array of tables. -/
  | arrayTable (path : List String)
  | entry (path : List String) (v : Value)
deriving Repr

/-- Takes a statement and the end of its line. -/
def takeStatement (s : List Char) : Option (Statement × List Char) := do
  match s with
  | '[' :: '[' :: s => do
    let (path, s) ← takeKeyPath nestingLimit s
    let s ← takeChar ']' s
    let s ← takeChar ']' s
    return (.arrayTable path, ← takeEndOfLine s)
  | '[' :: s => do
    let (path, s) ← takeKeyPath nestingLimit s
    let s ← takeChar ']' s
    return (.table path, ← takeEndOfLine s)
  | s => do
    let (path, s) ← takeKeyPath nestingLimit s
    let s ← takeChar '=' s
    let (v, s) ← takeValue (dropBlanks s)
    return (.entry path v, ← takeEndOfLine s)

/-- The statements of a text, of which there are fewer than `fuel`. -/
def statementsWithin? : Nat → List Char → Option (List Statement)
  | 0, _ => none
  | fuel + 1, s => do
    match ← skipTrivia false s with
    | [] => return []
    | s => do
      let (x, s) ← takeStatement s
      return x :: (← statementsWithin? fuel s)

/-- The statements of a text. Each takes at least one character. -/
def statements? (s : List Char) : Option (List Statement) := statementsWithin? (s.length + 1) s

/-! ## Documents -/

/-- A document as far as it has been read. -/
structure Document where
  root : Table := { origin := .header }
  /-- The path of the table that entries are added to. -/
  current : List String := []

namespace Document

def add? (d : Document) : Statement → Option Document
  | .table path => do
    return { root := ← d.root.openTable path, current := path }
  | .arrayTable path => do
    return { root := ← d.root.openArrayTable path, current := path }
  | .entry path v => do
    return { d with root := ← d.root.within false d.current (Table.addEntry path v) }

end Document

/-- A document may start with a byte order mark. -/
def dropByteOrderMark : List Char → List Char
  | '\ufeff' :: s => s
  | s => s

/-- The table of a document. -/
def parse? (text : String) : Option Table := do
  let statements ← statements? (dropByteOrderMark text.toList)
  let d ← statements.foldlM Document.add? {}
  return d.root

end FormCheck.Toml
