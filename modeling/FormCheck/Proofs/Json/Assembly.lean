import FormCheck.Json.Tree
import FormCheck.Proofs.Json.Spelling

/-!
# Texts that write a tree

The machine that builds a tree goes from place to place, one token at a time. Tokens write a tree
if they lead from a place where a value may come to the place behind that tree, whatever collections
are open there.

## Main definitions

* `Json.Assembles`: the lists of tokens that write a tree.
* `Json.AssemblesMember`: those that write a member of an object.
* `Json.PrintsAs`: the values whose texts write a tree.
* `Json.CompactsAs`: the values whose compact texts write a tree.
* `Json.Composes`: what holds of objects because it holds of their members.

## Main results

* `Json.assembles_string`, `Json.assembles_object`: strings and objects.
* `Json.composes_printsAs`, `Json.composes_compactsAs`: what is printed for them, with blanks and
  without.
* `Json.parse?_prettyText`, `Json.parse?_compactText`: a printed value is parsed as the tree that it
  writes.
-/

namespace FormCheck.Json

/-- Whether the tokens write the tree wherever a value may come. -/
def Assembles (ts : List Token) (v : Tree) : Prop :=
  ∀ stack rest, (ts ++ rest).foldlM Place.next? (.value stack) =
    rest.foldlM Place.next? (.after v stack)

/-- Whether the tokens write the name and the value of a member. -/
def AssemblesMember (ts : List Token) (m : Option String × Tree) : Prop :=
  ∃ us, ts = .string m.1 :: .colon :: us ∧ Assembles us m.2

theorem assembles_string (text : Option String) : Assembles [.string text] (.string text) :=
  fun _ _ => rfl

/-- The members that come behind those that an object has, up to its end. -/
theorem foldlM_next?_members {ts : List Token} {m : Option String × Tree}
    {tss : List (List Token)} {ms : List (Option String × Tree)} (h : AssemblesMember ts m)
    (hrest : List.Forall₂ AssemblesMember tss ms) (before : List (Option String × Tree))
    (stack : List Frame) (rest : List Token) :
    ([.comma].intercalate (ts :: tss) ++ .closeObject :: rest).foldlM Place.next?
        (.member before stack) =
      rest.foldlM Place.next? (.after (.object (before.reverse ++ m :: ms)) stack) := by
  induction hrest generalizing ts m before with
  | nil =>
    obtain ⟨us, rfl, hus⟩ := h
    have hvalue := hus (.object before m.1 :: stack) (.closeObject :: rest)
    have hend : before.reverse ++ [m] = (m :: before).reverse := by rw [List.reverse_cons]
    rw [List.intercalate_singleton, hend]
    exact hvalue
  | @cons ts' m' tss ms h' _ ih =>
    obtain ⟨us, rfl, hus⟩ := h
    have hvalue := hus (.object before m.1 :: stack)
      (.comma :: ([.comma].intercalate (ts' :: tss) ++ .closeObject :: rest))
    have htail := ih h' (m :: before)
    rw [List.reverse_cons, List.append_assoc, List.singleton_append] at htail
    rw [List.intercalate_cons_cons, List.append_assoc, List.append_assoc]
    exact hvalue.trans htail

theorem assembles_object {tss : List (List Token)} {ms : List (Option String × Tree)}
    (h : List.Forall₂ AssemblesMember tss ms) :
    Assembles (.openObject :: [.comma].intercalate tss ++ [.closeObject]) (.object ms) := by
  intro stack rest
  rw [List.append_assoc, List.singleton_append]
  cases h with
  | nil => rfl
  | @cons ts m tss ms h hrest =>
    have hmembers := foldlM_next?_members h hrest [] stack rest
    -- The first name may stand where the object could end, and leads on as any other name does.
    obtain ⟨us, rfl, hus⟩ := h
    cases tss <;> exact hmembers

/-! ## Printed values -/

/-- Whether a relation of values and trees holds of strings, and of objects by their members. -/
structure Composes (W : Json → Tree → Prop) : Prop where
  string (s : String) : W (.string s) (.string (some s))
  object {ms : List (String × Json)} {ns : List (Option String × Tree)}
    (h : List.Forall₂ (fun m n => n.1 = some m.1 ∧ W m.2 n.2) ms ns) : W (.object ms) (.object ns)

/-- Whether the text of a value writes the tree, at every level of nesting. -/
def PrintsAs (v : Json) (t : Tree) : Prop :=
  ∀ level, ∃ ts, Spells (prettyAt level v) ts ∧ Assembles ts t

theorem printsAs_string (s : String) : PrintsAs (.string s) (.string (some s)) :=
  fun _ => ⟨[.string (some s)], spells_quote s, assembles_string (some s)⟩

theorem spells_prettyMembers (level : Nat) {ms : List (String × Json)}
    {ns : List (Option String × Tree)}
    (h : List.Forall₂ (fun m n => n.1 = some m.1 ∧ PrintsAs m.2 n.2) ms ns) :
    ∃ tss, List.Forall₂ Spells (prettyMembers level ms) tss ∧
      List.Forall₂ AssemblesMember tss ns := by
  induction h with
  | nil => exact ⟨[], .nil, .nil⟩
  | @cons m n ms ns h _ ih =>
    obtain ⟨tss, hspells, hassembles⟩ := ih
    obtain ⟨hname, hvalue⟩ := h
    obtain ⟨ts, hts, hn⟩ := hvalue level
    have hcolon : Spells [':', ' '] [.colon] := spells_colon.append (spells_blank rfl)
    refine ⟨(.string (some m.1) :: .colon :: ts) :: tss, .cons ?_ hspells, .cons ?_ hassembles⟩
    · exact spells_member m.1 hcolon hts
    · exact ⟨ts, by rw [hname], hn⟩

theorem printsAs_object {ms : List (String × Json)} {ns : List (Option String × Tree)}
    (h : List.Forall₂ (fun m n => n.1 = some m.1 ∧ PrintsAs m.2 n.2) ms ns) :
    PrintsAs (.object ms) (.object ns) := by
  intro level
  obtain ⟨tss, hspells, hassembles⟩ := spells_prettyMembers (level + 1) h
  refine ⟨_, ?_, assembles_object hassembles⟩
  rw [prettyAt]
  exact spells_block (spells_char rfl fun _ => rfl) (spells_char rfl fun _ => rfl) hspells

theorem composes_printsAs : Composes PrintsAs := ⟨printsAs_string, printsAs_object⟩

theorem parse?_of_spells {text : List Char} {ts : List Token} {t : Tree} (h : Spells text ts)
    (ht : Assembles ts t) : Tree.parse? text = some t := by
  have hplaces := ht [] []
  rw [List.append_nil] at hplaces
  simp [Tree.parse?, tokens?_of_spells h, Tree.ofTokens?, hplaces, Place.tree?]

theorem parse?_prettyText {v : Json} {t : Tree} (h : PrintsAs v t) :
    Tree.parse? v.prettyText.toList = some t := by
  obtain ⟨ts, hspells, hassembles⟩ := h 0
  rw [prettyText, String.toList_ofList]
  exact parse?_of_spells hspells hassembles

/-! ## Compact values -/

/-- Whether the compact text of a value writes the tree. -/
def CompactsAs (v : Json) (t : Tree) : Prop := ∃ ts, Spells (compact v) ts ∧ Assembles ts t

theorem compactsAs_string (s : String) : CompactsAs (.string s) (.string (some s)) :=
  ⟨[.string (some s)], spells_quote s, assembles_string (some s)⟩

theorem spells_compactMembers {ms : List (String × Json)} {ns : List (Option String × Tree)}
    (h : List.Forall₂ (fun m n => n.1 = some m.1 ∧ CompactsAs m.2 n.2) ms ns) :
    ∃ tss, List.Forall₂ Spells (compactMembers ms) tss ∧ List.Forall₂ AssemblesMember tss ns := by
  induction h with
  | nil => exact ⟨[], .nil, .nil⟩
  | @cons m n ms ns h _ ih =>
    obtain ⟨tss, hspells, hassembles⟩ := ih
    obtain ⟨hname, ts, hts, hn⟩ := h
    refine ⟨(.string (some m.1) :: .colon :: ts) :: tss, .cons ?_ hspells, .cons ?_ hassembles⟩
    · exact spells_member m.1 spells_colon hts
    · exact ⟨ts, by rw [hname], hn⟩

theorem compactsAs_object {ms : List (String × Json)} {ns : List (Option String × Tree)}
    (h : List.Forall₂ (fun m n => n.1 = some m.1 ∧ CompactsAs m.2 n.2) ms ns) :
    CompactsAs (.object ms) (.object ns) := by
  obtain ⟨tss, hspells, hassembles⟩ := spells_compactMembers h
  have hopen : Spells ['{'] [.openObject] := spells_char rfl fun _ => rfl
  have hclose : Spells ['}'] [.closeObject] := spells_char rfl fun _ => rfl
  refine ⟨_, ?_, assembles_object hassembles⟩
  rw [compact]
  exact (hopen.append (spells_intercalate spells_comma hspells)).append hclose

theorem composes_compactsAs : Composes CompactsAs := ⟨compactsAs_string, compactsAs_object⟩

theorem parse?_compactText {v : Json} {t : Tree} (h : CompactsAs v t) :
    Tree.parse? v.compactText.toList = some t := by
  obtain ⟨ts, hspells, hassembles⟩ := h
  rw [compactText, String.toList_ofList]
  exact parse?_of_spells hspells hassembles

end FormCheck.Json
