import FormCheck.Invocation
import Mathlib.Data.Set.Operations

/-!
# Expressions and lists of invocations

Reading a rule expression and writing a list of invocations are inverse to each other. Every
expression is the written form of what it reads as. A list of invocations is what its written form
reads as if and only if no separator stands where it would be read, and the list is not the one
whose written form is empty although it has an invocation.

## Main definitions

* `Invocation.Expressible`: the lists of invocations that can be read back.

## Main results

* `Text.splitAll_eq_splitOn`: the parts of a text are those of the standard library.
* `Invocation.text_ofToken`, `Invocation.ofToken_text`: the correspondence for one invocation.
* `Invocation.expression_parse`, `Invocation.parse_expression`, `Invocation.expressible_parse`: the
  correspondence for expressions.
* `Invocation.parse_append`: an expression can be cut at a bar.
-/

namespace FormCheck

/-! ## Splitting -/

namespace Text

theorem splitAll_eq_splitOn (sep : Char) (s : List Char) : splitAll sep s = s.splitOn sep := by
  induction s with
  | nil => rfl
  | cons c s ih =>
    rw [splitAll, List.splitOn_cons_eq_if_modifyHead, ih]
    by_cases h : c = sep
    · simp [h]
    · have hne := List.splitOn_ne_nil sep s
      simp only [h, beq_iff_eq, if_false]
      cases hs : s.splitOn sep with
      | nil => exact absurd hs hne
      | cons p ps => rfl

theorem sep_notMem_of_mem_splitAll {sep : Char} {s p : List Char} (h : p ∈ splitAll sep s) :
    sep ∉ p := by
  induction s generalizing p with
  | nil => simp_all [splitAll]
  | cons c s ih =>
    unfold splitAll at h
    split at h
    · rcases List.mem_cons.mp h with rfl | h
      · exact List.not_mem_nil
      · exact ih h
    · next hc =>
      split at h
      · simp_all [Ne.symm hc]
      · next q qs hq =>
        rw [hq] at ih
        rcases List.mem_cons.mp h with rfl | h
        · simpa [Ne.symm hc] using ih List.mem_cons_self
        · exact ih (List.mem_cons_of_mem q h)

theorem splitOnce_append {sep : Char} {a : List Char} (h : sep ∉ a) (b : List Char) :
    splitOnce sep (a ++ sep :: b) = some (a, b) := by
  induction a with
  | nil => simp [splitOnce]
  | cons c a ih =>
    rw [List.mem_cons, not_or] at h
    simp [splitOnce, Ne.symm h.1, ih h.2]

end Text

namespace Invocation

/-! ## One invocation -/

theorem toList_text (i : Invocation) :
    i.text.toList = i.name.toList ++
      match i.modifier with
      | none => []
      | some m => modifierSeparator :: m.toList := by
  unfold text
  split <;> simp [*]

theorem text_ofToken (t : String) : (ofToken t).text = t := by
  unfold ofToken
  split
  · rfl
  · next name modifier h =>
    apply String.toList_inj.mp
    simp [toList_text, (Text.eq_append_of_splitOnce h).1]

theorem ofToken_text {i : Invocation} (h : modifierSeparator ∉ i.name.toList) :
    ofToken i.text = i := by
  obtain ⟨name, modifier⟩ := i
  cases modifier with
  | none => simp [ofToken, text, Text.splitOnce_eq_none_iff.mpr h]
  | some m => simp [ofToken, toList_text, Text.splitOnce_append h]

theorem modifierSeparator_notMem_name_ofToken (t : String) :
    modifierSeparator ∉ (ofToken t).name.toList := by
  unfold ofToken
  split
  · next h => exact Text.splitOnce_eq_none_iff.mp h
  · next h => simpa using (Text.eq_append_of_splitOnce h).2

/-! ## Expressions -/

/-- The lists of invocations that their expression determines. -/
structure Expressible (is : List Invocation) : Prop where
  name : ∀ i ∈ is, '|' ∉ i.name.toList ∧ ':' ∉ i.name.toList
  modifier : ∀ i ∈ is, ∀ m ∈ i.modifier, '|' ∉ m.toList
  /-- The expression of this list is empty, as is that of the empty list. -/
  ne_nameless : is ≠ [{ name := "" }]

theorem toList_expression (is : List Invocation) :
    (expression is).toList =
      [ruleSeparator].intercalate (is.map fun i => i.text.toList) := by
  simp [expression, Function.comp_def]

theorem ruleSeparator_notMem_text_iff {i : Invocation} :
    ruleSeparator ∉ i.text.toList ↔
      ruleSeparator ∉ i.name.toList ∧ ∀ m ∈ i.modifier, ruleSeparator ∉ m.toList := by
  rw [toList_text]
  cases i.modifier <;> simp [ruleSeparator, modifierSeparator]

theorem parse_of_ne_empty {e : String} (h : e ≠ "") :
    parse e = (e.toList.splitOn ruleSeparator).map fun t => ofToken (String.ofList t) := by
  rw [parse, if_neg (by simpa using h), Text.splitAll_eq_splitOn]

/-- An expression can be cut at any of its bars, unless a part is empty: an empty part within an
expression is an invocation, and an empty expression has none. -/
theorem parse_append {s t : String} (hs : s ≠ "") (ht : t ≠ "") :
    parse (s ++ ruleSeparator.toString ++ t) = parse s ++ parse t := by
  have hne : s ++ ruleSeparator.toString ++ t ≠ "" := by
    intro h
    rw [String.append_eq_empty_iff] at h
    exact ht h.2
  have hlist : (s ++ ruleSeparator.toString ++ t).toList =
      s.toList ++ ruleSeparator :: t.toList := by simp
  rw [parse_of_ne_empty hne, parse_of_ne_empty hs, parse_of_ne_empty ht, hlist,
    List.splitOn_append_cons_self, List.map_append]

theorem expression_parse (e : String) : expression (parse e) = e := by
  apply String.toList_inj.mp
  rw [toList_expression, parse]
  split
  · next h => simp [String.isEmpty_iff.mp h]
  · simp [Function.comp_def, text_ofToken, Text.splitAll_eq_splitOn]

/-- Only the empty list and the list of one nameless invocation are written as the empty text. -/
theorem eq_nil_of_expression_eq_empty {is : List Invocation}
    (h : ∀ i ∈ is, ruleSeparator ∉ i.text.toList) (hne : is ≠ [{ name := "" }])
    (he : expression is = "") : is = [] := by
  by_contra hnil
  have hbar : ∀ l ∈ is.map fun i => i.text.toList, ruleSeparator ∉ l := by simpa using h
  have hparts := List.splitOn_intercalate ruleSeparator hbar (by simpa using hnil)
  rw [← toList_expression, he, String.toList_empty, List.splitOn_nil] at hparts
  obtain ⟨i, rfl, hi⟩ := List.map_eq_singleton_iff.mp hparts.symm
  rw [toList_text, List.append_eq_nil_iff, String.toList_eq_nil_iff] at hi
  apply hne
  obtain ⟨name, modifier⟩ := i
  cases modifier <;> simp_all

theorem parse_expression {is : List Invocation} (h : Expressible is) :
    parse (expression is) = is := by
  have hbar : ∀ i ∈ is, ruleSeparator ∉ i.text.toList := fun i hi =>
    ruleSeparator_notMem_text_iff.mpr ⟨(h.name i hi).1, h.modifier i hi⟩
  by_cases hnil : is = []
  · subst hnil
    simp [parse, expression]
  · have hne : expression is ≠ "" := fun he =>
      hnil (eq_nil_of_expression_eq_empty hbar h.ne_nameless he)
    rw [parse_of_ne_empty hne, toList_expression,
      List.splitOn_intercalate _ (by simpa using hbar) (by simpa using hnil), List.map_map]
    refine (List.map_congr_left fun i hi => ?_).trans (List.map_id is)
    simp [ofToken_text (h.name i hi).2]

/-- What an expression reads as comes from parts between bars. -/
theorem exists_ofToken_of_mem_parse {e : String} {i : Invocation} (h : i ∈ parse e) :
    ∃ t : String, ruleSeparator ∉ t.toList ∧ i = ofToken t := by
  unfold parse at h
  split at h
  · simp at h
  · obtain ⟨t, ht, rfl⟩ := List.mem_map.mp h
    exact ⟨String.ofList t, by simpa using Text.sep_notMem_of_mem_splitAll ht, rfl⟩

theorem expressible_parse (e : String) : Expressible (parse e) := by
  have hbar : ∀ i ∈ parse e, ruleSeparator ∉ i.text.toList := by
    intro i hi
    obtain ⟨t, ht, rfl⟩ := exists_ofToken_of_mem_parse hi
    rwa [text_ofToken]
  have hcolon : ∀ i ∈ parse e, modifierSeparator ∉ i.name.toList := by
    intro i hi
    obtain ⟨t, -, rfl⟩ := exists_ofToken_of_mem_parse hi
    exact modifierSeparator_notMem_name_ofToken t
  refine ⟨?_, ?_, ?_⟩
  · intro i hi
    exact ⟨(ruleSeparator_notMem_text_iff.mp (hbar i hi)).1, hcolon i hi⟩
  · intro i hi
    exact (ruleSeparator_notMem_text_iff.mp (hbar i hi)).2
  · -- The nameless invocation would have been written as the empty text, which has none.
    intro h
    have he := expression_parse e
    rw [h] at he
    obtain rfl : "" = e := he
    simp [parse] at h

/-- Every expression is what its invocations are written as, and a list of invocations is what its
expression reads as if and only if the list is expressible. So reading identifies no two
expressions, and yields exactly the expressible lists. -/
theorem parse_expression_correspondence :
    (∀ e, expression (parse e) = e) ∧
      (∀ is, parse (expression is) = is ↔ Expressible is) ∧
      Function.Injective parse ∧ Set.range parse = {is | Expressible is} := by
  have hiff : ∀ is, parse (expression is) = is ↔ Expressible is := by
    intro is
    refine ⟨?_, parse_expression⟩
    intro h
    rw [← h]
    exact expressible_parse (expression is)
  refine ⟨expression_parse, hiff, Function.LeftInverse.injective expression_parse, ?_⟩
  ext is
  constructor
  · rintro ⟨e, rfl⟩
    exact expressible_parse e
  · intro h
    exact ⟨expression is, parse_expression h⟩

end Invocation

end FormCheck
