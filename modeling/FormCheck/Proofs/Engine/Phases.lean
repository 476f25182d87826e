import FormCheck.Engine

/-!
# A run in two phases

A run looks up and checks one invocation after the other. Its outcome is that of two separate
phases: the first resolves the names of all invocations, the second collects the messages of those
that fail.

## Main definitions

* `Rules.invocations`: all invocations of a rule set with their fields, in order.
* `Engine.resolves`: whether the name of an invocation is registered.
* `Engine.failure?`: the message of an invocation that its field's value fails.
* `Engine.evaluate`: both phases.

## Main results

* `Engine.evaluate_append`: lists of invocations are evaluated one after the other.
* `Engine.value_runInvocations`, `Engine.value_runRules`: the loops over invocations and rules
  follow the two phases, and so does a run.
-/

namespace FormCheck

/-- The invocations of a list of rules, each with the field that it is about. -/
def invocationsOf (rules : List (String × String)) : List (String × Invocation) :=
  rules.flatMap fun r => (Invocation.parse r.2).map fun i => (r.1, i)

def Rules.invocations (r : Rules) : List (String × Invocation) := invocationsOf r.toList

theorem invocationsOf_cons (field expression : String) (rules : List (String × String)) :
    invocationsOf ((field, expression) :: rules) =
      (Invocation.parse expression).map (fun i => (field, i)) ++ invocationsOf rules := rfl

theorem invocationsOf_append (rules others : List (String × String)) :
    invocationsOf (rules ++ others) = invocationsOf rules ++ invocationsOf others :=
  List.flatMap_append

theorem invocationsOf_singleton (r : String × String) :
    invocationsOf [r] = (Invocation.parse r.2).map fun i => (r.1, i) :=
  List.flatMap_singleton _ r

/-- A rule set of one rule has the invocations of its expression. -/
theorem Rules.invocations_singleton (r : String × String) :
    (Rules.ofList [r]).invocations = (Invocation.parse r.2).map fun i => (r.1, i) :=
  invocationsOf_singleton r

namespace Engine

/-! ## The phases -/

def resolves (e : Engine) (p : String × Invocation) : Bool := (e.registry.get? p.2.name).isSome

/-- The message of an invocation whose validator rejects the field's value. -/
def failure? (e : Engine) (fields : Fields) (labels : Labels) (p : String × Invocation) :
    Option String :=
  match e.registry.get? p.2.name with
  | some v =>
    if v.accepts (fields.get? p.1) p.2.modifier then none
    else some (v.message (labels.labelFor p.1) p.2.modifier)
  | none => none

/-- The first invocation that does not resolve is the fault. If all resolve, the messages of the
failures are collected. -/
def evaluate (e : Engine) (fields : Fields) (labels : Labels)
    (ps : List (String × Invocation)) : Except Fault (List String) :=
  match ps.find? fun p => !e.resolves p with
  | some (field, i) => .error (.unresolvedValidator field i.name)
  | none => .ok (ps.filterMap (e.failure? fields labels))

variable (e : Engine) (fields : Fields) (labels : Labels)

theorem evaluate_cons_of_unresolved {p : String × Invocation} (ps : List (String × Invocation))
    (h : e.registry.get? p.2.name = none) :
    e.evaluate fields labels (p :: ps) = .error (.unresolvedValidator p.1 p.2.name) := by
  simp [evaluate, resolves, h]

/-- The phases can be interleaved: a resolved invocation adds its message, if it has one, to the
outcome of the others. -/
theorem evaluate_cons_of_resolved {p : String × Invocation} {v : Validator}
    (ps : List (String × Invocation)) (h : e.registry.get? p.2.name = some v) :
    e.evaluate fields labels (p :: ps) =
      (e.evaluate fields labels ps).map ((e.failure? fields labels p).toList ++ ·) := by
  have hp : (!e.resolves p) = false := by simp [resolves, h]
  simp only [evaluate, List.find?_cons, hp]
  cases ps.find? fun p => !e.resolves p with
  | some q => rfl
  | none => cases hf : e.failure? fields labels p <;> simp [Except.map, hf]

theorem evaluate_append (ps qs : List (String × Invocation)) :
    e.evaluate fields labels (ps ++ qs) =
      match e.evaluate fields labels ps with
      | .error fault => .error fault
      | .ok messages => (e.evaluate fields labels qs).map (messages ++ ·) := by
  simp only [evaluate, List.find?_append, List.filterMap_append]
  cases ps.find? fun p => !e.resolves p with
  | some p => rfl
  | none => cases qs.find? fun p => !e.resolves p <;> rfl

/-! ## The loops -/

theorem value_runInvocations (field : String) (is : List Invocation) :
    (e.runInvocations field (labels.labelFor field) (fields.get? field) is).value =
      e.evaluate fields labels (is.map fun i => (field, i)) := by
  induction is with
  | nil => rfl
  | cons i is ih =>
    rw [List.map_cons]
    cases h : e.registry.get? i.name with
    | none =>
      rw [evaluate_cons_of_unresolved e fields labels _ h]
      simp [runInvocations, h]
    | some v =>
      rw [evaluate_cons_of_resolved e fields labels _ h, ← ih]
      by_cases ha : v.accepts (fields.get? field) i.modifier = true
      · have hf : e.failure? fields labels (field, i) = none := by simp [failure?, h, ha]
        simp only [runInvocations, h, ha, if_true, hf, Option.toList_none, List.nil_append]
        cases (e.runInvocations field _ _ is).value <;> rfl
      · have hf : e.failure? fields labels (field, i) =
            some (v.message (labels.labelFor field) i.modifier) := by simp [failure?, h, ha]
        simp only [runInvocations, h, ha, hf]
        rfl

theorem value_runRules (rules : List (String × String)) :
    (e.runRules fields labels rules).value = e.evaluate fields labels (invocationsOf rules) := by
  induction rules with
  | nil => rfl
  | cons r rules ih =>
    obtain ⟨field, expression⟩ := r
    have here := e.value_runInvocations fields labels field (Invocation.parse expression)
    rw [invocationsOf_cons, evaluate_append, ← here, ← ih]
    cases h : (e.runInvocations field (labels.labelFor field) (fields.get? field)
        (Invocation.parse expression)).value with
    | error fault => simp [runRules, h]
    | ok messages => simp [runRules, h]

/-- A run evaluates all invocations of its rules. -/
theorem value_run (rules : Rules) :
    (e.run fields rules labels).value =
      (e.evaluate fields labels rules.invocations).map ErrorLog.mk := by
  rw [run, Traced.value_andThen, Rules.invocations, ← e.value_runRules]
  cases (e.runRules fields labels rules.toList).value <;> rfl

/-- A run is a fault at the first invocation whose name is not registered, whatever the fields and
the labels are. If there is none, its log holds the messages of all failures, in order. -/
theorem value_run_two_phases (rules : Rules) :
    (e.run fields rules labels).value =
      match rules.invocations.find? fun p => !e.resolves p with
      | some (field, i) => .error (.unresolvedValidator field i.name)
      | none => .ok ⟨rules.invocations.filterMap (e.failure? fields labels)⟩ := by
  have h : (e.runRules fields labels rules.toList).value =
      e.evaluate fields labels rules.invocations := e.value_runRules fields labels rules.toList
  rw [run, Traced.value_andThen, h, evaluate]
  cases rules.invocations.find? fun p => !e.resolves p <;> rfl

end Engine

end FormCheck
