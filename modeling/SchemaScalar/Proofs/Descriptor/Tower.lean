import SchemaScalar.Proofs.Leaf.RoundTrip

/-!
# Towers of layers

What a tower says of an input depends on four things only: the leaf, whether some layer demands a
value, the bounds from the innermost outwards, and the key that messages name. `validate_eq` is
that rule, and `validate_closed_form` spells it out case by case. All conversions of a tower are
those of its leaf.
-/

namespace SchemaScalar.Descriptor

variable {leaf : Leaf}

/-! ## What a tower is made of -/

/-- The bounds of a tower, the innermost first. -/
def bounds : Descriptor leaf → List (Bound leaf.Measure)
  | bare _ => []
  | nonNull inner => inner.bounds
  | refined parent bound _ _ => parent.bounds ++ [bound]

/-- Whether some layer demands a value. -/
def demandsValue : Descriptor leaf → Bool
  | bare _ => false
  | nonNull _ => true
  | refined parent _ _ _ => parent.demandsValue

/-! ## Conversions -/

/-- What every layer takes over from the tower inside is that of the leaf. -/
theorem eq_of_layers {α : Type} {f : Descriptor leaf → α} {a : α}
    (hbare : ∀ description, f (.bare description) = a)
    (hnonNull : ∀ inner, f (.nonNull inner) = f inner)
    (hrefined : ∀ parent bound name description,
      f (.refined parent bound name description) = f parent)
    (descriptor : Descriptor leaf) : f descriptor = a := by
  induction descriptor with
  | bare _ => exact hbare _
  | nonNull inner ih => rw [hnonNull, ih]
  | refined parent _ _ _ ih => rw [hrefined, ih]

theorem sanitize_eq (descriptor : Descriptor leaf) : descriptor.sanitize = leaf.sanitize :=
  eq_of_layers (fun _ => rfl) (fun _ => rfl) (fun _ _ _ _ => rfl) descriptor

theorem serialize_eq (descriptor : Descriptor leaf) : descriptor.serialize = leaf.serialize :=
  eq_of_layers (fun _ => rfl) (fun _ => rfl) (fun _ _ _ _ => rfl) descriptor

theorem deserialize_eq (descriptor : Descriptor leaf) :
    descriptor.deserialize = leaf.deserialize :=
  eq_of_layers (fun _ => rfl) (fun _ => rfl) (fun _ _ _ _ => rfl) descriptor

theorem measure_eq (descriptor : Descriptor leaf) : descriptor.measure = leaf.measure :=
  eq_of_layers (fun _ => rfl) (fun _ => rfl) (fun _ _ _ _ => rfl) descriptor

theorem toJson_eq (descriptor : Descriptor leaf) : descriptor.toJson = leaf.toJson := by
  funext value
  rw [toJson, serialize_eq, Leaf.toJson]

/-! ## What the bounds of a tower say -/

/-- What bounds, the innermost first, say of an input that the leaf accepts. -/
def judge (key : String) (input : Json) : List (Bound leaf.Measure) → Outcome Json
  | [] => .success input
  | bound :: outer =>
    match leaf.measure input with
    | none => .fail (unmeasured leaf key)
    | some magnitude =>
      if bound.admits magnitude then judge key input outer
      else .fail (bound.violation leaf.label key magnitude)

/-- A bound around others is asked last, and only if none of them objects. -/
theorem judge_append (key : String) (input : Json) (inner outer : List (Bound leaf.Measure)) :
    judge key input (inner ++ outer) =
      (judge key input inner).andThen fun accepted => judge key accepted outer := by
  induction inner with
  | nil => rfl
  | cons bound inner ih =>
    simp only [List.cons_append, judge]
    split
    · rfl
    · split
      · exact ih
      · rfl

theorem judge_of_unmeasured {key : String} {input : Json} (hm : leaf.measure input = none)
    {bounds : List (Bound leaf.Measure)} (hb : bounds ≠ []) :
    judge key input bounds = .fail (unmeasured leaf key) := by
  obtain ⟨bound, outer, rfl⟩ := List.exists_cons_of_ne_nil hb
  simp only [judge, hm]

/-- An input is let through if it has a measure that all bounds admit; without bounds it needs
none. -/
theorem judge_eq_success_iff {key : String} {input output : Json}
    {bounds : List (Bound leaf.Measure)} :
    judge key input bounds = .success output ↔
      output = input ∧
        ∀ bound ∈ bounds, ∃ magnitude, leaf.measure input = some magnitude ∧
          bound.admits magnitude = true := by
  induction bounds with
  | nil =>
    simp only [judge, Outcome.success.injEq, List.not_mem_nil, false_imp_iff, implies_true,
      and_true]
    exact eq_comm
  | cons bound outer ih =>
    simp only [judge, List.mem_cons, forall_eq_or_imp]
    cases hm : leaf.measure input with
    | none => simp [Outcome.fail]
    | some magnitude =>
      simp only [hm] at ih
      cases ha : bound.admits magnitude with
      | true => simp [ih, ha]
      | false => simp [Outcome.fail, ha]

theorem judge_failure {key : String} {input : Json} {bounds : List (Bound leaf.Measure)}
    {messages : Messages} (h : judge key input bounds = .failure messages) :
    messages.others = [] := by
  induction bounds with
  | nil => cases h
  | cons bound outer ih =>
    simp only [judge] at h
    split at h
    · cases h; rfl
    · split at h
      · exact ih h
      · cases h; rfl

/-! ## What a tower says -/

theorem validate_nonNull {key : String} {input : Json} (h : input ≠ .null)
    (inner : Descriptor leaf) : (nonNull inner).validate key input = inner.validate key input := by
  cases input with
  | null => exact absurd rfl h
  | _ => rfl

/-- No leaf takes `null`, so the layers only choose between two messages. -/
theorem validate_null (descriptor : Descriptor leaf) (key : String) :
    descriptor.validate key .null =
      .fail (if descriptor.demandsValue then nullRefusal key else leaf.refusal key) := by
  induction descriptor with
  | bare _ => simp [validate, leaf.accepts_null, demandsValue]
  | nonNull inner _ => rfl
  | refined parent bound _ _ ih =>
    simp only [validate, ih, demandsValue]
    rfl

/-- **What a tower says of an input that is not `null`**: the leaf is asked first, then the bounds
from the innermost outwards. -/
theorem validate_eq (descriptor : Descriptor leaf) (key : String) {input : Json}
    (h : input ≠ .null) :
    descriptor.validate key input =
      if leaf.accepts input then judge key input descriptor.bounds
      else .fail (leaf.refusal key) := by
  induction descriptor with
  | bare _ => rfl
  | nonNull inner ih =>
    rw [validate_nonNull h, ih]
    rfl
  | refined parent bound _ _ ih =>
    simp only [validate, ih, bounds, measure_eq]
    split
    · rw [judge_append]
      rfl
    · rfl

/-- Names and descriptions have no part in validation, nor has the place of the layers that demand a
value. -/
theorem validate_congr {descriptor other : Descriptor leaf}
    (hb : descriptor.bounds = other.bounds) (hd : descriptor.demandsValue = other.demandsValue)
    (key : String) (input : Json) :
    descriptor.validate key input = other.validate key input := by
  by_cases hn : input = .null
  · subst hn
    rw [validate_null, validate_null, hd]
  · rw [validate_eq descriptor key hn, validate_eq other key hn, hb]

/-- An input is accepted if the leaf accepts it and all bounds admit its measure. -/
theorem validate_eq_success_iff {descriptor : Descriptor leaf} {key : String}
    {input output : Json} :
    descriptor.validate key input = .success output ↔
      output = input ∧ leaf.accepts input = true ∧
        ∀ bound ∈ descriptor.bounds, ∃ magnitude, leaf.measure input = some magnitude ∧
          bound.admits magnitude = true := by
  by_cases hn : input = .null
  · subst hn
    simp [validate_null, leaf.accepts_null, Outcome.fail]
  · rw [validate_eq descriptor key hn]
    split
    · next ha => simp [judge_eq_success_iff, ha]
    · next ha => simp [Outcome.fail, ha]

/-- Acceptance, whatever the key. -/
theorem isSuccess_validate_iff {descriptor : Descriptor leaf} {key : String} {input : Json} :
    (descriptor.validate key input).isSuccess = true ↔
      leaf.accepts input = true ∧
        ∀ bound ∈ descriptor.bounds, ∃ magnitude, leaf.measure input = some magnitude ∧
          bound.admits magnitude = true := by
  constructor
  · intro h
    cases hv : descriptor.validate key input with
    | success output => exact (validate_eq_success_iff.1 hv).2
    | failure messages => rw [hv] at h; cases h
  · intro h
    rw [validate_eq_success_iff.2 ⟨rfl, h⟩]
    rfl

/-! ## Which leaves can be measured -/

/-- Bounds on an empty type of measures do not exist. -/
theorem noBound (bound : Bound Empty) : False := by
  cases bound <;> contradiction

theorem size_of_validate_failure {descriptor : Descriptor leaf} {key : String} {input : Json}
    {messages : Messages} (h : descriptor.validate key input = .failure messages) :
    messages.size = 1 := by
  have ho : messages.others = [] := by
    by_cases hn : input = .null
    · subst hn
      rw [validate_null] at h
      cases h; rfl
    · rw [validate_eq descriptor key hn] at h
      split at h
      · exact judge_failure h
      · cases h; rfl
  rw [Messages.size, ho]
  rfl

end SchemaScalar.Descriptor
