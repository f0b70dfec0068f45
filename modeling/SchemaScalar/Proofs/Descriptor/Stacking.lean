import SchemaScalar.Proofs.Bound.Order
import SchemaScalar.Proofs.Descriptor.Tower

/-!
# The order of layers

Of the layers of a tower acceptance sees the limits alone, each to one side and in no order
(`limits`), and whether a value is demanded. Towers that agree in both say the same of every input,
unless it violates a bound: then each of them speaks for the innermost bound that is violated, which
need not be the same one (`restacked_agree`).
-/

namespace SchemaScalar.Descriptor

variable {leaf : Leaf}

/-! ## Limits -/

/-- The limits of a tower, each to one side; a range counts as two. -/
def limits (descriptor : Descriptor leaf) : List (Bound leaf.Measure) :=
  descriptor.bounds.flatMap Bound.sides

theorem limits_eq_nil_iff {descriptor : Descriptor leaf} :
    descriptor.limits = [] ↔ descriptor.bounds = [] := by
  rw [limits, List.flatMap_eq_nil_iff, List.eq_nil_iff_forall_not_mem]
  simp [Bound.sides_ne_nil]

/-- Bounds admit a magnitude if all limits do. -/
theorem admits_bounds_iff {descriptor : Descriptor leaf} {magnitude : leaf.Measure} :
    (∀ bound ∈ descriptor.bounds, bound.admits magnitude = true) ↔
      ∀ limit ∈ descriptor.limits, limit.admits magnitude = true := by
  simp only [limits, List.mem_flatMap, forall_exists_index, and_imp]
  constructor
  · intro h limit bound hb hl
    exact Bound.admits_iff_sides.1 (h bound hb) limit hl
  · intro h bound hb
    exact Bound.admits_iff_sides.2 fun limit hl => h limit bound hb hl

/-! ## Violations -/

/-- Whether some messages are the one of a bound that the measure of an input does not keep to. -/
def Violates (descriptor : Descriptor leaf) (key : String) (input : Json) (messages : Messages) :
    Prop :=
  ∃ magnitude, leaf.measure input = some magnitude ∧
    ∃ bound ∈ descriptor.bounds, bound.admits magnitude = false ∧
      messages = .one (bound.violation leaf.label key magnitude)

/-- Bounds that do not all admit the measure let one of them speak that does not. -/
theorem exists_violation (key : String) {input : Json} {magnitude : leaf.Measure}
    (hm : leaf.measure input = some magnitude) {bounds : List (Bound leaf.Measure)}
    (h : ¬ ∀ bound ∈ bounds, bound.admits magnitude = true) :
    ∃ bound ∈ bounds, bound.admits magnitude = false ∧
      judge key input bounds = .fail (bound.violation leaf.label key magnitude) := by
  induction bounds with
  | nil => simp at h
  | cons bound outer ih =>
    cases ha : bound.admits magnitude with
    | false =>
      refine ⟨bound, List.mem_cons_self, ha, ?_⟩
      simp [judge, hm, ha]
    | true =>
      have hrest : ¬ ∀ b ∈ outer, b.admits magnitude = true := by
        intro hall
        apply h
        simpa [ha] using hall
      obtain ⟨b, hb, hb', hj⟩ := ih hrest
      refine ⟨b, List.mem_cons_of_mem _ hb, hb', ?_⟩
      simp [judge, hm, ha, hj]

/-- Of a measured input the bounds let everything through, or else one is violated. -/
theorem judge_of_measured (descriptor : Descriptor leaf) (key : String) {input : Json}
    {magnitude : leaf.Measure} (hm : leaf.measure input = some magnitude) :
    ((∀ limit ∈ descriptor.limits, limit.admits magnitude = true) ∧
        judge key input descriptor.bounds = .success input) ∨
      ((¬ ∀ limit ∈ descriptor.limits, limit.admits magnitude = true) ∧
        ∃ messages, judge key input descriptor.bounds = .failure messages ∧
          descriptor.Violates key input messages) := by
  simp only [← admits_bounds_iff]
  by_cases h : ∀ bound ∈ descriptor.bounds, bound.admits magnitude = true
  · refine .inl ⟨h, judge_eq_success_iff.2 ⟨rfl, ?_⟩⟩
    intro bound hb
    exact ⟨magnitude, hm, h bound hb⟩
  · obtain ⟨bound, hb, ha, hj⟩ := exists_violation key hm h
    exact .inr ⟨h, _, hj, magnitude, hm, bound, hb, ha, rfl⟩

/-! ## Towers with the same limits -/

section Restacked

variable {descriptor other : Descriptor leaf} (hl : descriptor.limits.Perm other.limits)
  (hd : descriptor.demandsValue = other.demandsValue)
include hl

theorem bounds_eq_nil_iff_of_perm : descriptor.bounds = [] ↔ other.bounds = [] := by
  rw [← limits_eq_nil_iff, ← limits_eq_nil_iff]
  constructor
  · intro h
    rw [h] at hl
    exact hl.symm.eq_nil
  · intro h
    rw [h] at hl
    exact hl.eq_nil

/-- What the bounds say of an input that the leaf accepts. -/
theorem judge_restacked (key : String) (input : Json) :
    judge key input descriptor.bounds = judge key input other.bounds ∨
      ∃ messages messages', judge key input descriptor.bounds = .failure messages ∧
        judge key input other.bounds = .failure messages' ∧
        descriptor.Violates key input messages ∧ other.Violates key input messages' := by
  cases hm : leaf.measure input with
  | none =>
    left
    by_cases hb : descriptor.bounds = []
    · rw [hb, (bounds_eq_nil_iff_of_perm hl).1 hb]
    · have hb' : other.bounds ≠ [] := mt (bounds_eq_nil_iff_of_perm hl).2 hb
      rw [judge_of_unmeasured hm hb, judge_of_unmeasured hm hb']
  | some magnitude =>
    have hall : (∀ limit ∈ descriptor.limits, limit.admits magnitude = true) ↔
        ∀ limit ∈ other.limits, limit.admits magnitude = true := by
      simp only [hl.mem_iff]
    rcases judge_of_measured descriptor key hm with ⟨h, hj⟩ | ⟨h, messages, hj, hv⟩ <;>
      rcases judge_of_measured other key hm with ⟨h', hj'⟩ | ⟨h', messages', hj', hv'⟩
    · exact .inl (hj.trans hj'.symm)
    · exact absurd (hall.1 h) h'
    · exact absurd (hall.2 h') h
    · exact .inr ⟨messages, messages', hj, hj', hv, hv'⟩

include hd

theorem validate_restacked (key : String) (input : Json) :
    descriptor.validate key input = other.validate key input ∨
      ∃ messages messages', descriptor.validate key input = .failure messages ∧
        other.validate key input = .failure messages' ∧
        descriptor.Violates key input messages ∧ other.Violates key input messages' := by
  by_cases hn : input = .null
  · left
    rw [hn, validate_null, validate_null, hd]
  · rw [validate_eq descriptor key hn, validate_eq other key hn]
    by_cases ha : leaf.accepts input = true
    · simp only [if_pos ha]
      exact judge_restacked hl key input
    · left
      simp only [if_neg ha]

end Restacked

/-- **The order of layers does not decide acceptance.** Take two towers with the same limits, as
often in one as in the other and in any order, where a range may stand for its two sides or they
for it; and let both demand a value, or neither, by however many layers and wherever. Of every input
and under every key either both succeed with the same value or both fail; and then they give the
same messages, unless each of them speaks of a violated bound of its own. -/
theorem restacked_agree {descriptor other : Descriptor leaf}
    (hl : descriptor.limits.Perm other.limits)
    (hd : descriptor.demandsValue = other.demandsValue) (key : String) (input : Json) :
    (∃ value, descriptor.validate key input = .success value ∧
        other.validate key input = .success value) ∨
      ∃ messages messages', descriptor.validate key input = .failure messages ∧
        other.validate key input = .failure messages' ∧
        (messages = messages' ∨
          descriptor.Violates key input messages ∧ other.Violates key input messages') := by
  rcases validate_restacked hl hd key input with h | ⟨messages, messages', hv, hv', h⟩
  · cases ho : other.validate key input with
    | success value =>
      left
      exact ⟨value, h.trans ho, rfl⟩
    | failure messages =>
      right
      exact ⟨messages, messages, h.trans ho, rfl, .inl rfl⟩
  · right
    exact ⟨messages, messages', hv, hv', .inr h⟩

/-- A range the wrong way round inside a limit, and its sides around the limit in the other order:
neither tower takes 3, and each names its own innermost bound. -/
theorem restacked_agree_inverted :
    let tower : Descriptor .int := nonNull (((plain .int).refine (.range 5 1)).refine (.min 2))
    let other : Descriptor .int :=
      (((nonNull (plain .int)).refine (.max 1)).refine (.min 2)).refine (.min 5)
    (∃ messages messages', tower.validate "n" (.int 3) = .failure messages ∧
      other.validate "n" (.int 3) = .failure messages' ∧
      tower.Violates "n" (.int 3) messages ∧ other.Violates "n" (.int 3) messages') ∧
    tower.validate "n" (.int 3) ≠ other.validate "n" (.int 3) := by
  intro tower other
  have he : (tower.validate "n" (.int 3)).errors ≠ (other.validate "n" (.int 3)).errors := by
    decide +kernel
  have hne : tower.validate "n" (.int 3) ≠ other.validate "n" (.int 3) := fun h => he (by rw [h])
  have hl : tower.limits.Perm other.limits := by decide +kernel
  refine ⟨?_, hne⟩
  rcases restacked_agree hl rfl "n" (.int 3) with
    ⟨value, h, h'⟩ | ⟨messages, messages', h, h', rfl | hv⟩
  · exact absurd (h.trans h'.symm) hne
  · exact absurd (h.trans h'.symm) hne
  · exact ⟨messages, messages', h, h', hv⟩

end SchemaScalar.Descriptor
