import FormCheck.Proofs.Engine.Phases
import FormCheck.Proofs.Expression
import FormCheck.Proofs.OrderedMap.Entries

/-!
# Runs one after the other

Checking fields against one rule set and then against another gives the fault of the first run that
has one, or else the messages of both. Checking against the rules of both sets at once has the same
outcome, and so has checking one field against an expression that is cut at a bar.

## Main definitions

* `Rules.append`: the rules of two rule sets.
* `Engine.sequence`: the outcome of two runs.

## Main results

* `Rules.toList_append`: rule sets without a common field keep their rules and their order.
* `Engine.value_run_of_invocations`: runs follow the concatenation of lists of invocations.
-/

namespace FormCheck

/-! ## Two rule sets -/

/-- The rules of `a`, and behind them those of `b`. -/
def Rules.append (a b : Rules) : Rules := .ofList (a.toList ++ b.toList)

theorem Rules.toList_append {a b : Rules}
    (h : a.expressions.names.Disjoint b.expressions.names) :
    (a.append b).toList = a.toList ++ b.toList := by
  refine OrderedMap.entries_ofList ?_
  rw [Entries.names, List.map_append]
  exact a.expressions.nodup.append b.expressions.nodup h

theorem Rules.invocations_append {a b : Rules}
    (h : a.expressions.names.Disjoint b.expressions.names) :
    (a.append b).invocations = a.invocations ++ b.invocations := by
  rw [invocations, toList_append h]
  exact invocationsOf_append a.toList b.toList

namespace Engine

/-! ## Two runs -/

/-- The outcome of two runs, one after the other: the first fault, or the messages of both. -/
def sequence : Except Fault ErrorLog → Except Fault ErrorLog → Except Fault ErrorLog
  | .error fault, _ => .error fault
  | .ok _, .error fault => .error fault
  | .ok first, .ok second => .ok (first.extend second.errors)

/-- It does not matter how the invocations are spread over rules, as long as they come in the same
order. -/
theorem value_run_of_invocations (e : Engine) (fields : Fields) (labels : Labels) {a b c : Rules}
    (h : c.invocations = a.invocations ++ b.invocations) :
    (e.run fields c labels).value =
      sequence (e.run fields a labels).value (e.run fields b labels).value := by
  rw [value_run, value_run, value_run, h, evaluate_append]
  cases e.evaluate fields labels a.invocations with
  | error fault => rfl
  | ok first => cases e.evaluate fields labels b.invocations <;> rfl

/-- Rule sets without a common field can be checked one after the other, and so can the two parts
of an expression, whatever separators stand in them: both is the same as checking all at once. -/
theorem run_append_eq_sequence (e : Engine) (fields : Fields) (labels : Labels) :
    (∀ a b : Rules, a.expressions.names.Disjoint b.expressions.names →
      (a.append b).toList = a.toList ++ b.toList ∧
        (e.run fields (a.append b) labels).value =
          sequence (e.run fields a labels).value (e.run fields b labels).value) ∧
      ∀ s t : String, s ≠ "" → t ≠ "" →
        Invocation.parse (s ++ "|" ++ t) = Invocation.parse s ++ Invocation.parse t ∧
          ∀ field,
            (e.run fields (.ofList [(field, s ++ "|" ++ t)]) labels).value =
              sequence (e.run fields (.ofList [(field, s)]) labels).value
                (e.run fields (.ofList [(field, t)]) labels).value := by
  constructor
  · intro a b h
    exact ⟨Rules.toList_append h,
      e.value_run_of_invocations fields labels (Rules.invocations_append h)⟩
  · intro s t hs ht
    have hparse : Invocation.parse (s ++ "|" ++ t) = Invocation.parse s ++ Invocation.parse t :=
      Invocation.parse_append hs ht
    refine ⟨hparse, ?_⟩
    intro field
    apply value_run_of_invocations
    rw [Rules.invocations_singleton, Rules.invocations_singleton, Rules.invocations_singleton,
      hparse, List.map_append]

/-- Two fields without a value, and an expression that begins and ends with a bar. -/
theorem run_append_eq_sequence_required :
    (∃ a b : Rules, a.expressions.names.Disjoint b.expressions.names ∧
      (builtin.value.run {} (a.append b) {}).value =
        .ok ⟨["name is required.", "code is shorter than the required 3 characters."]⟩ ∧
      (builtin.value.run {} (a.append b) {}).value =
        sequence (builtin.value.run {} a {}).value (builtin.value.run {} b {}).value) ∧
      "|required" ≠ "" ∧ "len:3|" ≠ "" ∧
        Invocation.parse "|required|len:3|" =
          [⟨"", none⟩, ⟨"required", none⟩] ++ [⟨"len", some "3"⟩, ⟨"", none⟩] := by
  obtain ⟨hrules, hparts⟩ := run_append_eq_sequence builtin.value {} {}
  have hfields : (Rules.ofList [("name", "required")]).expressions.names.Disjoint
      (Rules.ofList [("code", "len:3")]).expressions.names := by
    show ["name"].Disjoint ["code"]
    simp
  refine ⟨⟨_, _, hfields, by decide +kernel, (hrules _ _ hfields).2⟩, by decide, by decide, ?_⟩
  exact (hparts "|required" "len:3|" (by decide) (by decide)).1

end Engine

end FormCheck
