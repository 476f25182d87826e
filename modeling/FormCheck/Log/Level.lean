/-!
# Log levels and layouts

## Main definitions

* `Log.Level`: the severities, with `Level.off` above all of them.
* `Log.Layout`: how a line is laid out.
* `Level.parse?`, `Layout.parse?`: the names, in letters of either case.
-/

namespace FormCheck.Log

/-- A name with its ASCII capitals made small. No character outside ASCII has one of the letters
of the names below as its small form, so this is all the folding that the names need. -/
def foldCase (name : String) : String := String.ofList (name.toList.map Char.toLower)

inductive Level where
  | trace
  | debug
  | info
  | warn
  | error
  /-- Nothing is logged. -/
  | off
deriving DecidableEq, Repr

namespace Level

/-- The levels, lowest first. -/
def all : List Level := [trace, debug, info, warn, error, off]

/-- The place of a level among all levels. -/
def rank : Level → Nat
  | trace => 0
  | debug => 1
  | info => 2
  | warn => 3
  | error => 4
  | off => 5

instance : LE Level := ⟨fun a b => a.rank ≤ b.rank⟩

instance : LT Level := ⟨fun a b => a.rank < b.rank⟩

instance (a b : Level) : Decidable (a ≤ b) := inferInstanceAs (Decidable (a.rank ≤ b.rank))

instance (a b : Level) : Decidable (a < b) := inferInstanceAs (Decidable (a.rank < b.rank))

def name : Level → String
  | trace => "TRACE"
  | debug => "DEBUG"
  | info => "INFO"
  | warn => "WARN"
  | error => "ERROR"
  | off => "OFF"

def parse? (text : String) : Option Level :=
  match foldCase text with
  | "trace" => some trace
  | "debug" => some debug
  | "info" => some info
  | "warn" => some warn
  | "warning" => some warn
  | "error" => some error
  | "off" => some off
  | "none" => some off
  | _ => none

end Level

inductive Layout where
  /-- A line for people. -/
  | pretty
  /-- A JSON object on one line. -/
  | json
deriving DecidableEq, Repr

namespace Layout

def name : Layout → String
  | pretty => "pretty"
  | json => "json"

def parse? (text : String) : Option Layout :=
  match foldCase text with
  | "pretty" => some pretty
  | "json" => some json
  | _ => none

end Layout

end FormCheck.Log
