import FormCheck.Json.Lexer
import FormCheck.OrderedMap

/-!
# JSON syntax trees

A tree keeps a text as it was written: numerals are not evaluated, members of objects stay in
order and may repeat a name. It is built by a machine that takes one token at a time and keeps the
open collections on a stack, so nesting may be as deep as it likes.

## Main definitions

* `Json.Tree`: syntax trees.
* `Json.Place`: the places between tokens, with `Place.next?` for the step from one to the next.
* `Tree.parse?`: the tree of a text.
* `Tree.value?`: the value of a tree: numerals evaluated, members sorted by name, the last member
  of a name kept.
* `Json.parse?`: the value of a text with limited nesting.
-/

namespace FormCheck.Json

inductive Tree where
  | null
  | bool (b : Bool)
  | number (n : Numeral)
  | string (text : Option String)
  | array (items : List Tree)
  | object (members : List (Option String × Tree))
deriving Repr

/-! ## From tokens to a tree -/

/-- A collection that is not closed yet, with the parts it has so far, last part first. -/
inductive Frame where
  | array (items : List Tree)
  /-- An object that waits for the value of `name`. -/
  | object (members : List (Option String × Tree)) (name : Option String)
deriving Repr

/-- A place between two tokens, named for what may come next. -/
inductive Place where
  /-- A value. -/
  | value (stack : List Frame)
  /-- The first item of an array, or its end. -/
  | firstItem (stack : List Frame)
  /-- The first member of an object, or its end. -/
  | firstMember (stack : List Frame)
  /-- Another member of an object. -/
  | member (members : List (Option String × Tree)) (stack : List Frame)
  /-- The colon after a member's name. -/
  | colon (members : List (Option String × Tree)) (name : Option String) (stack : List Frame)
  /-- What follows a value. -/
  | after (v : Tree) (stack : List Frame)
deriving Repr

namespace Place

/-- The place after a token with which a value starts. -/
def startValue? (stack : List Frame) : Token → Option Place
  | .null => some (after .null stack)
  | .bool b => some (after (.bool b) stack)
  | .number n => some (after (.number n) stack)
  | .string t => some (after (.string t) stack)
  | .openArray => some (firstItem stack)
  | .openObject => some (firstMember stack)
  | _ => none

/-- The place after a token, if the token may stand there. -/
def next? : Place → Token → Option Place
  | value stack, t => startValue? stack t
  | firstItem stack, .closeArray => some (after (.array []) stack)
  | firstItem stack, t => startValue? (.array [] :: stack) t
  | firstMember stack, .closeObject => some (after (.object []) stack)
  | firstMember stack, .string name => some (colon [] name stack)
  | member ms stack, .string name => some (colon ms name stack)
  | colon ms name stack, .colon => some (value (.object ms name :: stack))
  | after v (.array items :: stack), .comma => some (value (.array (v :: items) :: stack))
  | after v (.array items :: stack), .closeArray => some (after (.array (v :: items).reverse) stack)
  | after v (.object ms name :: stack), .comma => some (member ((name, v) :: ms) stack)
  | after v (.object ms name :: stack), .closeObject =>
    some (after (.object ((name, v) :: ms).reverse) stack)
  | _, _ => none

/-- The tree that is complete at a place, if nothing is open there. -/
def tree? : Place → Option Tree
  | after v [] => some v
  | _ => none

end Place

namespace Tree

def ofTokens? (ts : List Token) : Option Tree := do
  (← ts.foldlM Place.next? (.value [])).tree?

def parse? (s : List Char) : Option Tree := do
  ofTokens? (← tokens? s)

end Tree

/-! ## From a tree to a value -/

/-- Adds a member to members sorted by name, in place of the one of that name. -/
def insertSorted (name : String) (v : Json) : List (String × Json) → List (String × Json)
  | [] => [(name, v)]
  | m :: ms =>
    if name < m.1 then (name, v) :: m :: ms
    else if name = m.1 then (name, v) :: ms
    else m :: insertSorted name v ms

theorem insertSorted_of_lt {name other : String} (h : name < other) (v w : Json)
    (ms : List (String × Json)) :
    insertSorted name v ((other, w) :: ms) = (name, v) :: (other, w) :: ms := by
  rw [insertSorted, if_pos h]

theorem insertSorted_of_gt {name other : String} (h : ¬name < other ∧ name ≠ other) (v w : Json)
    (ms : List (String × Json)) :
    insertSorted name v ((other, w) :: ms) = (other, w) :: insertSorted name v ms := by
  rw [insertSorted, if_neg h.1, if_neg h.2]

mutual

/-- The value of a tree. -/
def Tree.value? : Tree → Option Json
  | .null => some .null
  | .bool b => some (.bool b)
  | .number n => n.value?.map .number
  | .string t => t.map .string
  | .array items => (Tree.values? items).map .array
  | .object members => (Tree.memberValues? members []).map .object

def Tree.values? : List Tree → Option (List Json)
  | [] => some []
  | t :: ts => do
    let v ← t.value?
    return v :: (← Tree.values? ts)

/-- Inserts the values of members into sorted members. -/
def Tree.memberValues? : List (Option String × Tree) → List (String × Json) →
    Option (List (String × Json))
  | [], ms => some ms
  | (name, t) :: ts, ms => do
    let v ← t.value?
    Tree.memberValues? ts (insertSorted (← name) v ms)

end

/-! ## Values of limited nesting -/

/-- The number of open collections, followed through a list of tokens to its maximum. -/
def maxNesting (opened : Nat) (reached : Nat) : List Token → Nat
  | [] => reached
  | .openArray :: ts | .openObject :: ts => maxNesting (opened + 1) (max reached (opened + 1)) ts
  | .closeArray :: ts | .closeObject :: ts => maxNesting (opened - 1) reached ts
  | _ :: ts => maxNesting opened reached ts

/-- A value may not be nested deeper. -/
def nestingLimit : Nat := 127

/-- The value of a text. -/
def parse? (text : String) : Option Json := do
  let ts ← tokens? text.toList
  if maxNesting 0 0 ts ≤ nestingLimit then (← Tree.ofTokens? ts).value? else none

end FormCheck.Json
