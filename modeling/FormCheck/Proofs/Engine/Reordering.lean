import FormCheck.Proofs.Engine.Phases
import FormCheck.Proofs.OrderedMap.Entries

/-!
# Runs of equal rule sets

Rule sets are equal if they give the same fields the same expressions, in whatever order. The order
decides which fault is reported and in which order the messages come. It does not decide whether
there is a fault, nor which messages a field gets.

## Main definitions

* `Engine.failures`: the messages of a list of invocations.
* `Engine.block`: the messages that a field gets from its rule.

## Main results

* `Rules.beq_iff_perm`: equality of rule sets ignores the order, and nothing else.
* `Engine.run_eq_ok_iff`: a run has a log if all invocations resolve, and then it has the failures.
* `Engine.failures_invocations`: the messages come in blocks, one for each rule.
-/

namespace FormCheck

theorem Rules.beq_iff_perm {a b : Rules} : (a == b) = true ↔ a.toList.Perm b.toList :=
  OrderedMap.beq_iff_perm

theorem Rules.get?_eq_some_iff {r : Rules} {field expression : String} :
    r.get? field = some expression ↔ (field, expression) ∈ r.toList :=
  OrderedMap.get?_eq_some_iff

theorem Rules.get?_eq_of_perm {a b : Rules} (h : a.toList.Perm b.toList) (field : String) :
    a.get? field = b.get? field := by
  refine Option.ext fun expression => ?_
  rw [get?_eq_some_iff, get?_eq_some_iff, h.mem_iff]

namespace Engine

variable {e : Engine} {fields : Fields} {labels : Labels}

/-- The messages of the invocations that fail. -/
def failures (e : Engine) (fields : Fields) (labels : Labels)
    (ps : List (String × Invocation)) : List String :=
  ps.filterMap (e.failure? fields labels)

/-- The messages that a field gets from its rule. -/
def block (e : Engine) (fields : Fields) (labels : Labels) (rules : Rules) (field : String) :
    List String :=
  match rules.get? field with
  | none => []
  | some expression => e.failures fields labels (invocationsOf [(field, expression)])

theorem evaluate_eq_ok_iff {ps : List (String × Invocation)} {messages : List String} :
    e.evaluate fields labels ps = .ok messages ↔
      (∀ p ∈ ps, e.resolves p = true) ∧ messages = e.failures fields labels ps := by
  unfold evaluate
  cases h : ps.find? fun p => !e.resolves p with
  | some p =>
    have hp := List.find?_some h
    have hmem := List.mem_of_find?_eq_some h
    constructor
    · intro h
      cases h
    · rintro ⟨hall, -⟩
      simp [hall p hmem] at hp
  | none =>
    have hall : ∀ p ∈ ps, e.resolves p = true := by simpa using h
    constructor
    · rintro ⟨⟩
      exact ⟨hall, rfl⟩
    · rintro ⟨-, rfl⟩
      rfl

theorem run_eq_ok_iff {rules : Rules} {log : ErrorLog} :
    (e.run fields rules labels).value = .ok log ↔
      (∀ p ∈ rules.invocations, e.resolves p = true) ∧
        log.errors = e.failures fields labels rules.invocations := by
  rw [value_run, ← evaluate_eq_ok_iff]
  cases e.evaluate fields labels rules.invocations with
  | error fault => simp [Except.map]
  | ok messages =>
    obtain ⟨errors⟩ := log
    simp [Except.map]

theorem block_of_mem {rules : Rules} {r : String × String} (h : r ∈ rules.toList) :
    e.block fields labels rules r.1 = e.failures fields labels (invocationsOf [r]) := by
  rw [block, Rules.get?_eq_some_iff.mpr h]

theorem block_of_perm {a b : Rules} (h : a.toList.Perm b.toList) (field : String) :
    e.block fields labels a field = e.block fields labels b field := by
  rw [block, block, Rules.get?_eq_of_perm h]

/-- The messages come in blocks, one for each rule. -/
theorem failures_invocations (rules : Rules) :
    e.failures fields labels rules.invocations =
      rules.toList.flatMap fun r => e.block fields labels rules r.1 := by
  rw [failures, Rules.invocations, invocationsOf, List.filterMap_flatMap]
  refine List.flatMap_congr fun r hr => ?_
  rw [block_of_mem hr, invocationsOf_singleton, failures]

/-- A rule that is checked on its own gives its block. -/
theorem run_singleton {rules : Rules} (h : ∀ p ∈ rules.invocations, e.resolves p = true)
    {r : String × String} (hr : r ∈ rules.toList) :
    (e.run fields (.ofList [r]) labels).value = .ok ⟨e.block fields labels rules r.1⟩ := by
  refine run_eq_ok_iff.mpr ⟨?_, block_of_mem hr⟩
  intro p hp
  rw [Rules.invocations_singleton] at hp
  exact h p (List.mem_flatMap.mpr ⟨r, hr, hp⟩)

theorem exists_fault_of_unresolved {rules : Rules}
    (h : ¬∀ p ∈ rules.invocations, e.resolves p = true) :
    ∃ fault, (e.run fields rules labels).value = .error fault := by
  cases hrun : (e.run fields rules labels).value with
  | error fault => exact ⟨fault, rfl⟩
  | ok log => exact absurd (run_eq_ok_iff.mp hrun).1 h

/-- Equal rule sets have a fault together or none. Without one, each log consists of one block of
messages for each rule, in the order of its rule set. The block of a field is what its rule gives
on its own, and the same for both rule sets, so that the logs have the same messages in some order.
Rule sets that agree on the order as well have the same outcome, be it a log or a fault. -/
theorem run_of_beq (e : Engine) (fields : Fields) (labels : Labels) {a b : Rules}
    (h : (a == b) = true) :
    ((∃ f g, (e.run fields a labels).value = .error f ∧
        (e.run fields b labels).value = .error g) ∨
      ∃ la lb : ErrorLog,
        (e.run fields a labels).value = .ok la ∧ (e.run fields b labels).value = .ok lb ∧
        la.errors.Perm lb.errors ∧ la.fails = lb.fails ∧ la.size = lb.size ∧
        la.errors = (a.toList.flatMap fun r => e.block fields labels a r.1) ∧
        lb.errors = (b.toList.flatMap fun r => e.block fields labels b r.1) ∧
        (∀ field, e.block fields labels a field = e.block fields labels b field) ∧
        ∀ r ∈ a.toList,
          (e.run fields (.ofList [r]) labels).value = .ok ⟨e.block fields labels a r.1⟩) ∧
    (a.toList = b.toList → (e.run fields a labels).value = (e.run fields b labels).value) := by
  have hperm : a.toList.Perm b.toList := Rules.beq_iff_perm.mp h
  have hinv : a.invocations.Perm b.invocations := hperm.flatMap_right _
  constructor
  · by_cases hall : ∀ p ∈ a.invocations, e.resolves p = true
    · right
      have hallb : ∀ p ∈ b.invocations, e.resolves p = true := fun p hp =>
        hall p (hinv.mem_iff.mpr hp)
      have hfail : (e.failures fields labels a.invocations).Perm
          (e.failures fields labels b.invocations) := hinv.filterMap _
      refine ⟨_, _, run_eq_ok_iff.mpr ⟨hall, rfl⟩, run_eq_ok_iff.mpr ⟨hallb, rfl⟩, hfail, ?_,
        hfail.length_eq, failures_invocations a, failures_invocations b, block_of_perm hperm, ?_⟩
      · exact congrArg not hfail.isEmpty_eq
      · exact fun r hr => run_singleton hall hr
    · left
      have hallb : ¬∀ p ∈ b.invocations, e.resolves p = true := fun hb =>
        hall fun p hp => hb p (hinv.mem_iff.mp hp)
      obtain ⟨f, hf⟩ := exists_fault_of_unresolved hall
      obtain ⟨g, hg⟩ := exists_fault_of_unresolved hallb
      exact ⟨f, g, hf, hg⟩
  · intro hsame
    rw [value_run, value_run, Rules.invocations, Rules.invocations, hsame]

/-- Two fields without a value, checked in either order. -/
theorem run_of_beq_swapped :
    ∃ a b : Rules, (a == b) = true ∧ ∃ la lb : ErrorLog,
      (builtin.value.run {} a {}).value = .ok la ∧ (builtin.value.run {} b {}).value = .ok lb ∧
        la.errors = ["name is required.", "code is shorter than the required 3 characters."] ∧
        la.errors.Perm lb.errors ∧ la.errors ≠ lb.errors := by
  have hbeq : (Rules.ofList [("name", "required"), ("code", "len:3")] ==
      Rules.ofList [("code", "len:3"), ("name", "required")]) = true := by decide
  refine ⟨_, _, hbeq, ?_⟩
  have ha : (builtin.value.run {} (.ofList [("name", "required"), ("code", "len:3")]) {}).value =
      .ok ⟨["name is required.", "code is shorter than the required 3 characters."]⟩ := by
    decide +kernel
  have hb : (builtin.value.run {} (.ofList [("code", "len:3"), ("name", "required")]) {}).value =
      .ok ⟨["code is shorter than the required 3 characters.", "name is required."]⟩ := by
    decide +kernel
  obtain ⟨⟨f, -, hf, -⟩ | ⟨la, lb, hla, hlb, hperm, -⟩, -⟩ :=
    run_of_beq builtin.value {} {} hbeq
  · rw [ha] at hf
    cases hf
  · rw [ha] at hla
    rw [hb] at hlb
    cases hla
    cases hlb
    exact ⟨_, _, ha, hb, rfl, hperm, by decide⟩

end Engine

end FormCheck
