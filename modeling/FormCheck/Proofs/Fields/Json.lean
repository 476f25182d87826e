import FormCheck.Json.Fields
import FormCheck.Json.Tree
import FormCheck.Proofs.Decimal.Text
import FormCheck.Proofs.Fields
import FormCheck.Proofs.Text.ByteOrder
import FormCheck.Proofs.Validator.Required

/-!
# Fields of a JSON object

An object whose members are no collections gives one field for each member, in the order of the
members. Otherwise the first collection is the fault. Since the members of an object come in the
order of the bytes of their names, it is the one with the least name.

## Main definitions

* `Json.HasKind`: what messages call a value.
* `Json.StandsFor`: what a value stands for as the value of a field.
* `Json.MembersAscend`: the order in which the members of an object come.
* `Json.isUnfilled`: the members, or missing ones, that leave a field without content.
* `Fields.Mirrors`: fields that are those of members.

## Main results

* `Json.membersAscend_of_parse?`: values that are read from a text have that order.
* `Fields.insertMembers_of_collection`, `Fields.exists_insertMembers`: the loop over the members.
* `Fields.Mirrors.all_isEmpty_eq`: which fields of an object have no content.
-/

namespace FormCheck

/-! ## Values -/

namespace JsonNumber

theorem ofList_integerText (n : Int) : String.ofList (integerText n) = toString n := by
  cases n with
  | ofNat n => rfl
  | negSucc n => exact String.ofList_cons

end JsonNumber

theorem Decimal.Denotes.ne_nil {u : List Char} {x : ℚ} (h : Denotes u x) : u ≠ [] := by
  cases h with
  | plain _ hp => exact List.ne_nil_of_mem hp
  | up | down => simp

namespace Json

/-- The kind of a value, and what messages call it. -/
inductive HasKind : Json → JsonKind → String → Prop
  | null : HasKind .null .null "null"
  | bool (b : Bool) : HasKind (.bool b) .boolean "boolean"
  | number (n : JsonNumber) : HasKind (.number n) .number "number"
  | string (s : String) : HasKind (.string s) .string "string"
  | array (items : List Json) : HasKind (.array items) .array "array"
  | object (members : List (String × Json)) : HasKind (.object members) .object "object"

theorem hasKind (v : Json) : v.HasKind v.kind v.kind.name := by
  cases v <;> constructor

/-- What a value stands for as the value of a field. An integer is written as usual. A
floating-point number has a text with a point or an exponent, which writes a number with the fewest
digits that round to it. -/
inductive StandsFor : Json → Option String → Prop
  | null : StandsFor .null none
  | no : StandsFor (.bool false) none
  | yes : StandsFor (.bool true) (some "1")
  | integer (n : Int) : StandsFor (.number (.integer n)) (some (toString n))
  | float {negative : Bool} {magnitude : Binary64} {u : List Char} {x : ℚ}
      (hu : Decimal.Denotes u x) (hx : magnitude.IsShortest x) :
      StandsFor (.number (.float negative magnitude))
        (some (String.ofList (if negative then '-' :: u else u)))
  | string (s : String) : StandsFor (.string s) (some s)

def isCollection : Json → Bool
  | array _ | object _ => true
  | _ => false

/-- Whether a member leaves a field without content. So does a missing one. -/
def isUnfilled : Option Json → Bool
  | none | some null | some (bool false) => true
  | some (string s) => s.isEmpty
  | _ => false

theorem fieldValue?_of_isCollection {v : Json} (h : v.isCollection = true) :
    v.fieldValue? = .error v.kind := by
  cases v with
  | array => rfl
  | object => rfl
  | _ => cases h

theorem exists_fieldValue? {v : Json} (h : v.isCollection = false) :
    ∃ value, v.StandsFor value ∧ v.fieldValue? = .ok value := by
  cases v with
  | null => exact ⟨none, .null, rfl⟩
  | bool b =>
    cases b with
    | false => exact ⟨none, .no, rfl⟩
    | true => exact ⟨some "1", .yes, rfl⟩
  | number n =>
    cases n with
    | integer n =>
      refine ⟨_, .integer n, ?_⟩
      rw [← JsonNumber.ofList_integerText]
      rfl
    | float negative magnitude =>
      obtain ⟨x, hu, hx⟩ := magnitude.exists_denotes_text
      refine ⟨_, .float hu hx, ?_⟩
      cases negative <;> rfl
  | string s => exact ⟨_, .string s, rfl⟩
  | array => cases h
  | object => cases h

theorem StandsFor.all_isEmpty_eq {v : Json} {value : Option String} (h : v.StandsFor value) :
    value.all (·.isEmpty) = isUnfilled (some v) := by
  cases h with
  | integer n =>
    have htext : (toString n).isEmpty = false := by
      rw [← JsonNumber.ofList_integerText]
      cases n <;> simp [JsonNumber.integerText, Nat.toDigits_ne_nil]
    exact htext
  | @float negative _ u _ hu =>
    have htext : (String.ofList (if negative then '-' :: u else u)).isEmpty = false := by
      split <;> simp [hu.ne_nil]
    exact htext
  | _ => rfl

/-! ## The order of members -/

/-- Whether the members of an object come in the order of the bytes of their names, each name once.
Other values have no members. -/
def MembersAscend : Json → Prop
  | object members => members.Pairwise fun m n => Text.bytes m.1 < Text.bytes n.1
  | _ => True

theorem fst_mem_insertSorted {name : String} {v : Json} {ms : List (String × Json)}
    {m : String × Json} (h : m ∈ insertSorted name v ms) : m.1 = name ∨ m ∈ ms := by
  induction ms with
  | nil => exact .inl (congrArg Prod.fst (List.mem_singleton.mp h))
  | cons other ms ih =>
    rw [insertSorted] at h
    split at h
    · rcases List.mem_cons.mp h with rfl | h
      · exact .inl rfl
      · exact .inr h
    · split at h
      · rcases List.mem_cons.mp h with rfl | h
        · exact .inl rfl
        · exact .inr (List.mem_cons_of_mem _ h)
      · rcases List.mem_cons.mp h with rfl | h
        · exact .inr List.mem_cons_self
        · exact (ih h).imp_right (List.mem_cons_of_mem _)

theorem pairwise_insertSorted {ms : List (String × Json)} (h : ms.Pairwise fun m n => m.1 < n.1)
    (name : String) (v : Json) : (insertSorted name v ms).Pairwise fun m n => m.1 < n.1 := by
  induction ms with
  | nil => exact List.pairwise_singleton _ _
  | cons other ms ih =>
    obtain ⟨hfirst, hrest⟩ := List.pairwise_cons.mp h
    rw [insertSorted]
    split
    · next hlt =>
      refine List.pairwise_cons.mpr ⟨?_, h⟩
      intro m hm
      rcases List.mem_cons.mp hm with rfl | hm
      · exact hlt
      · exact String.lt_trans hlt (hfirst m hm)
    · split
      · next heq =>
        subst heq
        exact List.pairwise_cons.mpr ⟨hfirst, hrest⟩
      · next hlt hne =>
        refine List.pairwise_cons.mpr ⟨?_, ih hrest⟩
        intro m hm
        rcases fst_mem_insertSorted hm with hname | hm
        · rw [hname]
          by_contra hge
          exact hne (String.le_antisymm (String.not_lt.mp hge) (String.not_lt.mp hlt))
        · exact hfirst m hm

theorem pairwise_memberValues? {ts : List (Option String × Tree)} {ms ms' : List (String × Json)}
    (hms : ms.Pairwise fun m n => m.1 < n.1) (h : Tree.memberValues? ts ms = some ms') :
    ms'.Pairwise fun m n => m.1 < n.1 := by
  induction ts generalizing ms with
  | nil =>
    cases h
    exact hms
  | cons t ts ih =>
    obtain ⟨name, t⟩ := t
    simp only [Tree.memberValues?, Option.bind_eq_bind, Option.bind_eq_some_iff] at h
    obtain ⟨v, -, text, -, h⟩ := h
    exact ih (pairwise_insertSorted hms text v) h

theorem membersAscend_of_value? {t : Tree} {x : Json} (h : t.value? = some x) :
    x.MembersAscend := by
  cases t with
  | object members =>
    rw [Tree.value?] at h
    obtain ⟨ms, hms, rfl⟩ := Option.map_eq_some_iff.mp h
    exact (pairwise_memberValues? .nil hms).imp Text.bytes_lt_iff.mpr
  | null =>
    cases h
    trivial
  | bool b =>
    cases h
    trivial
  | _ =>
    rw [Tree.value?] at h
    obtain ⟨_, -, rfl⟩ := Option.map_eq_some_iff.mp h
    trivial

/-- The members of an object that is read from a text are in order. -/
theorem membersAscend_of_parse? {text : String} {x : Json} (h : parse? text = some x) :
    x.MembersAscend := by
  simp only [parse?, Option.bind_eq_bind, Option.bind_eq_some_iff] at h
  obtain ⟨ts, -, h⟩ := h
  split at h
  · obtain ⟨t, -, ht⟩ := Option.bind_eq_some_iff.mp h
    exact membersAscend_of_value? ht
  · cases h

end Json

/-! ## From members to fields -/

namespace Fields

/-- Whether fields are those of members, one for each and in their order. -/
def Mirrors (members : List (String × Json)) (entries : List (String × Option String)) : Prop :=
  List.Forall₂ (fun m e => m.1 = e.1 ∧ m.2.StandsFor e.2) members entries

/-- The loop over the members stops at the first collection. -/
theorem insertMembers_of_collection {before : List (String × Json)}
    (hbefore : ∀ m ∈ before, m.2.isCollection = false) {v : Json} (hv : v.isCollection = true)
    (name : String) (rest : List (String × Json)) (f : Fields) :
    f.insertMembers (before ++ (name, v) :: rest) = .error (.invalidFieldValue name v.kind) := by
  induction before generalizing f with
  | nil => simp only [List.nil_append, insertMembers, Json.fieldValue?_of_isCollection hv]
  | cons m before ih =>
    obtain ⟨hm, hbefore⟩ := List.forall_mem_cons.mp hbefore
    obtain ⟨value, -, hvalue⟩ := Json.exists_fieldValue? hm
    simp only [List.cons_append, insertMembers, hvalue]
    exact ih hbefore _

theorem exists_insertMembers {members : List (String × Json)}
    (h : ∀ m ∈ members, m.2.isCollection = false) (f : Fields) :
    ∃ pairs, Mirrors members pairs ∧
      f.insertMembers members = .ok (pairs.foldl (fun f p => f.insert p.1 p.2) f) := by
  induction members generalizing f with
  | nil => exact ⟨[], .nil, rfl⟩
  | cons m members ih =>
    obtain ⟨hm, hmembers⟩ := List.forall_mem_cons.mp h
    obtain ⟨value, hstands, hvalue⟩ := Json.exists_fieldValue? hm
    obtain ⟨pairs, hpairs, hinsert⟩ := ih hmembers (f.insert m.1 value)
    refine ⟨(m.1, value) :: pairs, .cons ⟨rfl, hstands⟩ hpairs, ?_⟩
    simp only [insertMembers, hvalue, hinsert, List.foldl_cons]

theorem Mirrors.names_eq {members : List (String × Json)} {pairs : List (String × Option String)}
    (h : Mirrors members pairs) : members.map Prod.fst = Entries.names pairs := by
  induction h with
  | nil => rfl
  | cons hm _ ih => rw [List.map_cons, Entries.names_cons, hm.1, ih]

theorem Mirrors.pairwise {members : List (String × Json)} {pairs : List (String × Option String)}
    (h : Mirrors members pairs) (hmembers : (Json.object members).MembersAscend) :
    pairs.Pairwise fun a b => Text.bytes a.1 < Text.bytes b.1 := by
  have hnames : (members.map Prod.fst).Pairwise fun a b => Text.bytes a < Text.bytes b :=
    List.pairwise_map.mpr hmembers
  rw [h.names_eq, Entries.names, List.pairwise_map] at hnames
  exact hnames

/-- The fields without content are those whose members are not filled in, or missing. -/
theorem Mirrors.all_isEmpty_eq {members : List (String × Json)}
    {pairs : List (String × Option String)} (h : Mirrors members pairs) (name : String) :
    (pairs.lookup name).join.all (·.isEmpty) = Json.isUnfilled (members.lookup name) := by
  induction h with
  | nil => rfl
  | @cons m e members pairs hm _ ih =>
    rw [List.lookup_cons, List.lookup_cons, ← hm.1]
    cases name == m.1 with
    | true => exact hm.2.all_isEmpty_eq
    | false => exact ih

/-- Members without collections give their fields. -/
theorem exists_ofJson_object {members : List (String × Json)}
    (hmembers : (Json.object members).MembersAscend)
    (h : ∀ m ∈ members, m.2.isCollection = false) :
    ∃ f, ofJson (.object members) = .ok f ∧ Mirrors members f.toList := by
  obtain ⟨pairs, hpairs, hinsert⟩ := exists_insertMembers h {}
  have hnodup : (Entries.names pairs).Nodup := by
    refine List.pairwise_map.mpr ((hpairs.pairwise hmembers).imp ?_)
    intro a b hlt heq
    rw [heq] at hlt
    exact List.lt_irrefl _ hlt
  refine ⟨ofList pairs, hinsert.trans (congrArg _ (ofList_eq_foldl pairs).symm), ?_⟩
  rw [toList, ofList, OrderedMap.entries_ofList hnodup]
  exact hpairs

/-- The first collection of members in order is the one with the least name. -/
theorem exists_ofJson_collection {members : List (String × Json)}
    (hmembers : (Json.object members).MembersAscend)
    (h : ∃ m ∈ members, m.2.isCollection = true) :
    ∃ name v, (name, v) ∈ members ∧ v.isCollection = true ∧
      (∀ m ∈ members, m.2.isCollection = true →
        m = (name, v) ∨ Text.bytes name < Text.bytes m.1) ∧
      ofJson (.object members) = .error (.invalidFieldValue name v.kind) := by
  obtain ⟨⟨name, v⟩, hfirst⟩ := Option.isSome_iff_exists.mp
    (List.find?_isSome (p := fun m : String × Json => m.2.isCollection).mpr h)
  obtain ⟨hv, before, rest, rfl, hbefore⟩ := List.find?_eq_some_iff_append.mp hfirst
  have hbefore : ∀ m ∈ before, m.2.isCollection = false := fun m hm => by
    simpa using hbefore m hm
  refine ⟨name, v, List.mem_append_cons_self, hv, ?_, insertMembers_of_collection hbefore hv ..⟩
  intro m hm hcollection
  rcases List.mem_append.mp hm with hm | hm
  · rw [hbefore m hm] at hcollection
    cases hcollection
  · rcases List.mem_cons.mp hm with rfl | hm
    · exact .inl rfl
    · have hrest := (List.pairwise_append.mp hmembers).2.1
      exact .inr (List.rel_of_pairwise_cons hrest hm)

theorem forall_isCollection_of_ofJson {members : List (String × Json)}
    (hmembers : (Json.object members).MembersAscend) {f : Fields}
    (h : ofJson (.object members) = .ok f) : ∀ m ∈ members, m.2.isCollection = false := by
  intro m hm
  rw [Bool.eq_false_iff]
  intro hcollection
  obtain ⟨name, v, -, -, -, herror⟩ := exists_ofJson_collection hmembers ⟨m, hm, hcollection⟩
  rw [h] at herror
  cases herror

theorem run_required_of_mirrors {members : List (String × Json)} {f : Fields}
    (h : Mirrors members f.toList) (names : List String) (labels : Labels) :
    (Engine.builtin.value.run f (.ofList (names.map fun name => (name, "required")))
        labels).value =
      .ok ⟨(names.eraseDups.filter fun name => Json.isUnfilled (members.lookup name)).map
        fun name => labels.labelFor name ++ " is required."⟩ := by
  have hrequired : Engine.builtin.value.registry.get? Validator.requiredName =
      some Validator.required := rfl
  have hunfilled : ∀ name, (f.get? name).all (·.isEmpty) =
      Json.isUnfilled (members.lookup name) := by
    intro name
    rw [f.get?_eq, h.all_isEmpty_eq]
  have hrun := Engine.run_required hrequired f labels names
  simp only [hunfilled] at hrun
  exact hrun

/-- The fields of an object are its members in order, unless one of them is a collection. Then the
collection with the least name is the fault. What is no object is a fault of its own. A rule that
asks for a field of the object to be filled in fails just if the member is missing, nothing, false
or the empty text. -/
theorem ofJson_outcome {x : Json} (hx : x.MembersAscend) :
    ((∃ f, ofJson x = .ok f) ↔
      ∃ members, x = .object members ∧ ∀ m ∈ members, m.2.isCollection = false) ∧
    (∀ members f, x = .object members → ofJson x = .ok f →
      Mirrors members f.toList ∧
      f.toList.Pairwise (fun a b => Text.bytes a.1 < Text.bytes b.1) ∧
      ∀ (names : List String) (labels : Labels),
        (Engine.builtin.value.run f (.ofList (names.map fun name => (name, "required")))
            labels).value =
          .ok ⟨(names.eraseDups.filter fun name => Json.isUnfilled (members.lookup name)).map
            fun name => labels.labelFor name ++ " is required."⟩) ∧
    (∀ members, x = .object members → (∃ m ∈ members, m.2.isCollection = true) →
      ∃ name v kind called, (name, v) ∈ members ∧ v.isCollection = true ∧
        (∀ m ∈ members, m.2.isCollection = true →
          m = (name, v) ∨ Text.bytes name < Text.bytes m.1) ∧
        v.HasKind kind called ∧ ofJson x = .error (.invalidFieldValue name kind) ∧
        (Fault.invalidFieldValue name kind).message =
          "Field '" ++ name ++ "' has an unsupported value of type " ++ called) ∧
    ((∀ members, x ≠ .object members) →
      ∃ kind called, x.HasKind kind called ∧ ofJson x = .error (.notAnObject kind) ∧
        (Fault.notAnObject kind).message =
          "Invalid rule schema: field set must be a JSON object, got " ++ called) := by
  refine ⟨⟨?_, ?_⟩, ?_, ?_, ?_⟩
  · rintro ⟨f, hf⟩
    cases x with
    | object members => exact ⟨members, rfl, forall_isCollection_of_ofJson hx hf⟩
    | _ => cases hf
  · rintro ⟨members, rfl, h⟩
    obtain ⟨f, hf, -⟩ := exists_ofJson_object hx h
    exact ⟨f, hf⟩
  · rintro members f rfl hf
    obtain ⟨g, hg, hmirrors⟩ :=
      exists_ofJson_object hx (forall_isCollection_of_ofJson hx hf)
    rw [hf] at hg
    cases hg
    exact ⟨hmirrors, hmirrors.pairwise hx, run_required_of_mirrors hmirrors⟩
  · rintro members rfl h
    obtain ⟨name, v, hmem, hv, hleast, herror⟩ := exists_ofJson_collection hx h
    exact ⟨name, v, v.kind, v.kind.name, hmem, hv, hleast, v.hasKind, herror, rfl⟩
  · intro h
    refine ⟨x.kind, x.kind.name, x.hasKind, ?_, rfl⟩
    cases x with
    | object members => exact absurd rfl (h members)
    | _ => rfl

/-- A number, an empty text and a field that is missing. -/
theorem ofJson_outcome_empty_text :
    let members : List (String × Json) := [("age", .number (.integer 36)), ("name", .string "")]
    (Json.object members).MembersAscend ∧
      ∃ f, ofJson (.object members) = .ok f ∧
        (Engine.builtin.value.run f
          (.ofList [("name", "required"), ("age", "required"), ("city", "required")]) {}).value =
            .ok ⟨["name is required.", "city is required."]⟩ := by
  intro members
  have hmembers : (Json.object members).MembersAscend := by
    simp only [Json.MembersAscend, Text.bytes_lt_iff]
    decide
  obtain ⟨hok, hfields, -⟩ := ofJson_outcome hmembers
  obtain ⟨f, hf⟩ := hok.mpr ⟨members, rfl, by decide⟩
  exact ⟨hmembers, f, hf, (hfields members f rfl hf).2.2 ["name", "age", "city"] {}⟩

end Fields

end FormCheck
