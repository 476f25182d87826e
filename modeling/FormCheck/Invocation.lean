import FormCheck.Text.Split

/-!
# Rule expressions

A rule expression such as `required|len:8|email` lists invocations, separated by bars. An
invocation names a validator and may hand it a modifier after a colon.

## Main definitions

* `Invocation`: a validator's name and its modifier.
* `Invocation.ofToken`: reads one invocation.
* `Invocation.parse`: reads a rule expression.
* `Invocation.text`, `Invocation.expression`: the written forms of one and of many.
-/

namespace FormCheck

structure Invocation where
  name : String
  modifier : Option String := none
deriving DecidableEq, Repr

namespace Invocation

/-- Stands between the invocations of an expression. -/
def ruleSeparator : Char := '|'

/-- Stands between the name and the modifier of an invocation. -/
def modifierSeparator : Char := ':'

/-- Attaches a modifier in place of the one that was there. -/
def withModifier (i : Invocation) (modifier : String) : Invocation :=
  { i with modifier := some modifier }

/-- Only the first colon separates; the others belong to the modifier. -/
def ofToken (token : String) : Invocation :=
  match Text.splitOnce modifierSeparator token.toList with
  | none => { name := token }
  | some (name, modifier) =>
    { name := String.ofList name, modifier := some (String.ofList modifier) }

/-- The empty expression has no invocations. Otherwise every part between bars is one, even an
empty part. -/
def parse (expression : String) : List Invocation :=
  if expression.isEmpty then []
  else (Text.splitAll ruleSeparator expression.toList).map fun t => ofToken (String.ofList t)

def text (i : Invocation) : String :=
  match i.modifier with
  | none => i.name
  | some m => i.name ++ modifierSeparator.toString ++ m

def expression (is : List Invocation) : String :=
  ruleSeparator.toString.intercalate (is.map text)

end Invocation

end FormCheck
