import FormCheck.Fields
import FormCheck.Proofs.OrderedMap.Changes

/-!
# Fields, rules and labels over time

The three collections are maps in insertion order. In whatever way one was built, it lists each name
where it first came and with what was said last, its queries agree with the list, and only the list
without its order counts for equality.

## Main definitions

* `Fields.Change`, `Fields.after`: building a field set. A field can be given with a value, without
  one, or either way.
* `Rules.after`, `Labels.after`: building rule sets and labels.

## Main results

* `Fields.values_after`: a field set is built as the map of its values.
* `Fields.beq_iff`: field sets are equal if they declare the same fields with the same values.
-/

namespace FormCheck

/-! ## Fields -/

namespace Fields

/-- What can be done to a field set. -/
inductive Change where
  | add (name value : String)
  | addAbsent (name : String)
  | insert (name : String) (value : Option String)
  /-- Starts anew with fields that have values. -/
  | collect (pairs : List (String × String))

namespace Change

def apply : Change → Fields → Fields
  | add name value, f => f.add name value
  | addAbsent name, f => f.addAbsent name
  | insert name value, f => f.insert name value
  | collect pairs, _ => .ofList (pairs.map fun p => (p.1, some p.2))

/-- The change of the map of values. -/
def onValues : Change → OrderedMap.Change (Option String)
  | add name value => .insert name (some value)
  | addAbsent name => .insert name none
  | insert name value => .insert name value
  | collect pairs => .collect (pairs.map fun p => (p.1, some p.2))

end Change

def after (changes : List Change) : Fields := changes.foldl (fun f c => c.apply f) {}

/-- The fields that changes give, with or without values. -/
def given (changes : List Change) : List (String × Option String) :=
  OrderedMap.given (changes.map Change.onValues)

theorem values_apply (c : Change) (f : Fields) :
    (c.apply f).values = c.onValues.apply f.values := by
  cases c <;> rfl

theorem values_after (changes : List Change) :
    (after changes).values = OrderedMap.after (changes.map Change.onValues) := by
  rw [OrderedMap.after, List.foldl_map]
  exact (List.foldl_hom values fun f c => (values_apply c f).symm).symm

theorem ofList_eq_foldl (pairs : List (String × Option String)) :
    ofList pairs = pairs.foldl (fun f p => f.insert p.1 p.2) {} :=
  (List.foldl_hom Fields.mk fun _ _ => rfl).symm

theorem contains_eq (f : Fields) (name : String) :
    f.contains name = (f.toList.lookup name).isSome :=
  congrArg Option.isSome (f.values.get?_eq_lookup name)

theorem get?_eq (f : Fields) (name : String) : f.get? name = (f.toList.lookup name).join :=
  congrArg Option.join (f.values.get?_eq_lookup name)

/-- A field without a value is told from a missing one by whether it is declared. -/
theorem beq_iff {f g : Fields} :
    (f == g) = true ↔ ∀ name, f.contains name = g.contains name ∧ f.get? name = g.get? name := by
  have hvalues : (f == g) = true ↔ ∀ name, f.values.get? name = g.values.get? name :=
    OrderedMap.beq_iff_get?
  rw [hvalues]
  refine forall_congr' fun name => ?_
  rw [contains, contains, OrderedMap.contains, OrderedMap.contains, get?, get?]
  cases f.values.get? name <;> cases g.values.get? name <;> simp

end Fields

/-! ## Rules and labels -/

section

variable (changes : List (OrderedMap.Change String)) (pairs : List (String × String))

/-- Adding a rule in passing and inserting it are the same change. -/
def Rules.apply (c : OrderedMap.Change String) (r : Rules) : Rules :=
  match c with
  | .insert field expression => r.insert field expression
  | .collect pairs => .ofList pairs

def Rules.after : Rules := changes.foldl (fun r c => r.apply c) {}

def Labels.apply (c : OrderedMap.Change String) (l : Labels) : Labels :=
  match c with
  | .insert field label => l.insert field label
  | .collect pairs => .ofList pairs

def Labels.after : Labels := changes.foldl (fun l c => l.apply c) {}

theorem Rules.expressions_after : (Rules.after changes).expressions = OrderedMap.after changes :=
  (List.foldl_hom expressions fun _ c => by cases c <;> rfl).symm

theorem Labels.names_after : (Labels.after changes).names = OrderedMap.after changes :=
  (List.foldl_hom names fun _ c => by cases c <;> rfl).symm

theorem Rules.ofList_eq_foldl :
    Rules.ofList pairs = pairs.foldl (fun r p => r.insert p.1 p.2) {} :=
  (List.foldl_hom Rules.mk fun _ _ => rfl).symm

theorem Labels.ofList_eq_foldl :
    Labels.ofList pairs = pairs.foldl (fun l p => l.insert p.1 p.2) {} :=
  (List.foldl_hom Labels.mk fun _ _ => rfl).symm

end

theorem Rules.get?_eq (r : Rules) (field : String) : r.get? field = r.toList.lookup field :=
  r.expressions.get?_eq_lookup field

theorem Labels.labelFor_eq (l : Labels) (field : String) :
    l.labelFor field = (l.toList.lookup field).getD field :=
  congrArg (Option.getD · field) (l.names.get?_eq_lookup field)

theorem Rules.beq_iff {a b : Rules} : (a == b) = true ↔ ∀ field, a.get? field = b.get? field :=
  OrderedMap.beq_iff_get?

theorem Labels.beq_iff {a b : Labels} :
    (a == b) = true ↔ ∀ field, a.toList.lookup field = b.toList.lookup field := by
  have hnames : (a == b) = true ↔ ∀ field, a.names.get? field = b.names.get? field :=
    OrderedMap.beq_iff_get?
  simp only [hnames, OrderedMap.get?_eq_lookup, Labels.toList]

/-- In whatever way fields, rules or labels were built, they list each name once, in the order in
which the names first came since pairs were collected, with what was given last. What is asked of
them is answered from the list, and for a field without a label with the field itself. Collecting
pairs is inserting them one by one. Two of a kind are equal if they say the same of each name, in
whatever order, where a field without a value is not a missing one. -/
theorem lists_after_changes :
    (∀ changes : List Fields.Change, let f := Fields.after changes
      Entries.Lists f.toList (Fields.given changes) ∧ f.size = f.toList.length ∧
        ∀ name, f.get? name = (f.toList.lookup name).join ∧
          f.contains name = (f.toList.lookup name).isSome) ∧
    (∀ changes : List (OrderedMap.Change String), let r := Rules.after changes
      Entries.Lists r.toList (OrderedMap.given changes) ∧ r.size = r.toList.length ∧
        ∀ field, r.get? field = r.toList.lookup field) ∧
    (∀ changes : List (OrderedMap.Change String), let l := Labels.after changes
      Entries.Lists l.toList (OrderedMap.given changes) ∧
        ∀ field, l.labelFor field = (l.toList.lookup field).getD field) ∧
    (∀ pairs, Fields.ofList pairs = pairs.foldl (fun f p => f.insert p.1 p.2) {}) ∧
    (∀ pairs, Rules.ofList pairs = pairs.foldl (fun r p => r.insert p.1 p.2) {}) ∧
    (∀ pairs, Labels.ofList pairs = pairs.foldl (fun l p => l.insert p.1 p.2) {}) ∧
    (∀ f g : Fields, (f == g) = true ↔
      ∀ name, f.contains name = g.contains name ∧ f.get? name = g.get? name) ∧
    (∀ a b : Rules, (a == b) = true ↔ ∀ field, a.get? field = b.get? field) ∧
    (∀ a b : Labels, (a == b) = true ↔
      ∀ field, a.toList.lookup field = b.toList.lookup field) := by
  refine ⟨?_, ?_, ?_, Fields.ofList_eq_foldl, Rules.ofList_eq_foldl, Labels.ofList_eq_foldl,
    fun _ _ => Fields.beq_iff, fun _ _ => Rules.beq_iff, fun _ _ => Labels.beq_iff⟩
  · intro changes f
    refine ⟨?_, rfl, fun name => ⟨f.get?_eq name, f.contains_eq name⟩⟩
    rw [Fields.toList, Fields.values_after]
    exact OrderedMap.lists_after _
  · intro changes r
    refine ⟨?_, rfl, r.get?_eq⟩
    rw [Rules.toList, Rules.expressions_after]
    exact OrderedMap.lists_after changes
  · intro changes l
    refine ⟨?_, l.labelFor_eq⟩
    rw [Labels.toList, Labels.names_after]
    exact OrderedMap.lists_after changes

/-- A name that comes again keeps its place and takes the later value. -/
example :
    (Fields.after [.collect [("old", "1")], .collect [("b", "1"), ("a", "2"), ("b", "3")],
      .addAbsent "a", .insert "c" (some "4")]).toList =
      [("b", some "3"), ("a", none), ("c", some "4")] := by
  decide

end FormCheck
