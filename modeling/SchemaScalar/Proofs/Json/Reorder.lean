import SchemaScalar.Proofs.Json.Schema

/-!
# Documents with their members in another order

Two documents may differ only in the order in which the members of an object stand somewhere in
them. A meaning is stable if it cannot tell them apart. The meanings of scalar documents are, since
these have no members; those of arrays and of fields are if the meanings are that they are made
from, so that the order of members never matters to a record.
-/

namespace SchemaScalar.Json.Tree

variable {α : Type}

/-- One object of a document, at whatever depth, gets its members in another order. -/
inductive Reorders : Tree → Tree → Prop where
  | members {members others : List (String × Tree)} (h : members.Perm others) :
      Reorders (.object members) (.object others)
  | element {element other : Tree} (before after : List Tree) (h : Reorders element other) :
      Reorders (.array (before ++ element :: after)) (.array (before ++ other :: after))
  | value {value other : Tree} (name : String) (before after : List (String × Tree))
      (h : Reorders value other) :
      Reorders (.object (before ++ (name, value) :: after))
        (.object (before ++ (name, other) :: after))

theorem Reorders.symm {tree other : Tree} (h : Reorders tree other) : Reorders other tree := by
  induction h with
  | members h => exact .members h.symm
  | element before after _ ih => exact .element before after ih
  | value name before after _ ih => exact .value name before after ih

/-- An object stays an object: its members are in another order, or one of their values is
reordered. -/
theorem Reorders.object_inv {members : List (String × Tree)} {other : Tree}
    (h : Reorders (.object members) other) :
    ∃ others, other = .object others ∧ (members.Perm others ∨
      ∃ before name value reordered after, members = before ++ (name, value) :: after ∧
        others = before ++ (name, reordered) :: after ∧ Reorders value reordered) := by
  cases h with
  | members h => exact ⟨_, rfl, .inl h⟩
  | value name before after h => exact ⟨_, rfl, .inr ⟨before, name, _, _, after, rfl, rfl, h⟩⟩

/-- An array keeps its elements, of which one is reordered. -/
theorem Reorders.array_inv {elements : List Tree} {other : Tree}
    (h : Reorders (.array elements) other) :
    ∃ before element reordered after, elements = before ++ element :: after ∧
      other = .array (before ++ reordered :: after) ∧ Reorders element reordered := by
  cases h with
  | element before after h => exact ⟨before, _, _, after, rfl, rfl, h⟩

/-- Reordering makes no array of what is none. -/
theorem Reorders.array_notMem {elements others : List Tree}
    (h : Reorders (.array elements) (.array others)) (hnone : ∀ inner, array inner ∉ elements) :
    ∀ inner, array inner ∉ others := by
  intro inner hmem
  obtain ⟨before, element, reordered, after, rfl, heq, hreorders⟩ := h.array_inv
  cases heq
  simp only [List.mem_append, List.mem_cons, not_or] at hmem hnone
  rcases hmem with hmem | rfl | hmem
  · exact (hnone inner).1 hmem
  · obtain ⟨_, _, _, _, -, rfl, -⟩ := hreorders.symm.array_inv
    exact (hnone _).2.1 rfl
  · exact (hnone inner).2.2 hmem

/-- The only item of a list is the one singled out in it. -/
theorem of_singleton_eq {β : Type} {item other : β} {before after : List β}
    (h : [item] = before ++ other :: after) : before = [] ∧ other = item ∧ after = [] := by
  cases before with
  | nil =>
    obtain ⟨rfl, rfl⟩ := List.cons.inj h
    exact ⟨rfl, rfl, rfl⟩
  | cons first before => simp at h

/-- Whether a meaning cannot tell documents apart that differ in the order of members. -/
def Stable (means : Tree → α → Prop) : Prop :=
  ∀ tree other, Reorders tree other → ∀ value, means tree value → means other value

/-! ## Meanings of documents -/

theorem stable_isBool : Stable IsBool := by
  rintro _ other h b rfl
  cases h

theorem stable_isString : Stable IsString := by
  rintro _ other h s rfl
  cases h

theorem stable_isInt64 : Stable IsInt64 := by
  rintro _ other h k ⟨n, spelling, proper, rfl, -⟩
  cases h

theorem stable_orNull {means : Tree → α → Prop} (hmeans : Stable means) :
    Stable (OrNull means) := by
  intro tree other h value hvalue
  cases value with
  | none =>
    obtain rfl : tree = .null := hvalue
    cases h
  | some content => exact hmeans tree other h content hvalue

/-- An object that gives a choice has only one member, whose value has none. -/
theorem stable_isChoice (choices : List (String × α)) : Stable (IsChoice choices) := by
  rintro _ other h value ⟨name, hchosen, rfl | rfl⟩
  · cases h
  · refine ⟨name, hchosen, .inr ?_⟩
    obtain ⟨others, rfl, hperm | ⟨before, key, inner, reordered, after, heq, -, hinner⟩⟩ :=
      h.object_inv
    · rw [List.singleton_perm.1 hperm]
    · obtain ⟨-, hmember, -⟩ := of_singleton_eq heq
      cases hmember
      cases hinner

theorem stable_isArrayOf {means : Tree → α → Prop} (hmeans : Stable means) :
    Stable (IsArrayOf means) := by
  rintro _ other h values ⟨elements, rfl, hvalues⟩
  obtain ⟨before, element, reordered, after, rfl, rfl, hreorders⟩ := h.array_inv
  refine ⟨_, rfl, ?_⟩
  clear h
  induction before generalizing values with
  | nil =>
    cases hvalues with
    | cons hfirst hothers => exact .cons (hmeans _ _ hreorders _ hfirst) hothers
  | cons first before ih =>
    cases hvalues with
    | cons hfirst hothers => exact .cons hfirst (ih _ hothers)

/-! ## Meanings of fields -/

/-- Lists of values that differ in their order, or by one value that is reordered. -/
def Rearranges (values others : List Tree) : Prop :=
  values.Perm others ∨ ∃ before value reordered after, values = before ++ value :: after ∧
    others = before ++ reordered :: after ∧ Reorders value reordered

theorem Reorders.values {members others : List (String × Tree)}
    (h : Reorders (.object members) (.object others)) (name : String) :
    Rearranges (values name members) (values name others) := by
  obtain ⟨_, heq, hperm | ⟨before, key, value, reordered, after, rfl, rfl, hvalue⟩⟩ := h.object_inv
  · cases heq
    exact .inl (hperm.filterMap _)
  · cases heq
    rw [values_append, values_append]
    by_cases hkey : key = name
    · subst hkey
      rw [values_cons_self, values_cons_self]
      exact .inr ⟨_, _, _, _, rfl, rfl, hvalue⟩
    · rw [values_cons_of_ne hkey, values_cons_of_ne hkey]
      exact .inl (.refl _)

theorem Reorders.names {members others : List (String × Tree)}
    (h : Reorders (.object members) (.object others)) :
    (members.map Prod.fst).Perm (others.map Prod.fst) := by
  obtain ⟨_, heq, hperm | ⟨before, key, value, reordered, after, rfl, rfl, -⟩⟩ := h.object_inv
  · cases heq
    exact hperm.map _
  · cases heq
    simp

variable {means : Tree → α → Prop} {values others : List Tree}

theorem Once.of_rearranges (hmeans : Stable means) (h : Rearranges values others) {content : α}
    (honce : Once means values content) : Once means others content := by
  obtain ⟨tree, rfl, hcontent⟩ := honce
  obtain hperm | ⟨before, value, reordered, after, heq, rfl, hreorders⟩ := h
  · exact ⟨tree, (List.singleton_perm.1 hperm).symm, hcontent⟩
  · obtain ⟨rfl, rfl, rfl⟩ := of_singleton_eq heq
    exact ⟨reordered, rfl, hmeans _ _ hreorders _ hcontent⟩

theorem AtMostOnce.of_rearranges (hmeans : Stable means) (h : Rearranges values others)
    {absent content : α} (hfield : AtMostOnce means absent values content) :
    AtMostOnce means absent others content := by
  obtain ⟨rfl, rfl⟩ | honce := hfield
  · obtain hperm | ⟨before, _, _, after, heq, -, -⟩ := h
    · exact .inl ⟨List.nil_perm.1 hperm, rfl⟩
    · exact absurd heq (by simp)
  · exact .inr (honce.of_rearranges hmeans h)

end SchemaScalar.Json.Tree
