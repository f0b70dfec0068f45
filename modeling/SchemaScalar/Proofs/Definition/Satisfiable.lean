import SchemaScalar.Proofs.Bound.Order
import SchemaScalar.Proofs.Definition.Build

/-!
# Bounds that can be kept to

Wherever a bound stands in a tower, it must admit something for any input to be let in
(`exists_admitted_of_accepted`), and where it is the only one of its tower nothing else is needed
(`exists_accepted_iff`). Definitions never get that far with limits the wrong way round: the bound
of whatever is built admits something (`exists_admitted_of_build`).
-/

namespace SchemaScalar

open Descriptor (boundedInt)
open Magnitude (atMost)

/-- Every magnitude is the measure of some input that the leaf accepts. -/
theorem Leaf.exists_of_measure (leaf : Leaf) (magnitude : leaf.Measure) :
    ∃ input, leaf.accepts input = true ∧ leaf.measure input = some magnitude := by
  have hint : ∀ n : Int64, (Json.Number.ofInt64 n).toInt64? = some n :=
    Json.Number.toInt64?_ofInt64
  have hlength : ∀ n : Nat, (String.ofList (List.replicate n 'a')).length = n := by simp
  cases leaf with
  | string => exact ⟨.string _, rfl, congrArg some (hlength magnitude)⟩
  | id => exact ⟨.string _, rfl, congrArg some (hlength magnitude)⟩
  | int => exact ⟨.int magnitude, congrArg Option.isSome (hint magnitude), hint magnitude⟩
  | loose => exact ⟨.int magnitude, rfl, hint magnitude⟩
  | boolean => exact magnitude.elim
  | float => exact magnitude.elim
  | date => exact magnitude.elim

namespace Descriptor

variable {leaf : Leaf}

/-! ## Towers -/

/-- **Every bound of a tower that accepts an input admits something**, wherever it stands. -/
theorem exists_admitted_of_accepted {descriptor : Descriptor leaf} {bound : Bound leaf.Measure}
    (hb : bound ∈ descriptor.bounds) {key : String} {input : Json}
    (h : (descriptor.validate key input).isSuccess = true) :
    ∃ magnitude, bound.admits magnitude = true := by
  obtain ⟨magnitude, -, hadmits⟩ := (isSuccess_validate_iff.1 h).2 bound hb
  exact ⟨magnitude, hadmits⟩

/-- An input is accepted if the only bound of a tower admits its measure. -/
theorem validate_of_admitted {descriptor : Descriptor leaf} {bound : Bound leaf.Measure}
    (hb : descriptor.bounds = [bound]) {input : Json} (ha : leaf.accepts input = true)
    {magnitude : leaf.Measure} (hm : leaf.measure input = some magnitude)
    (hadmits : bound.admits magnitude = true) (key : String) :
    descriptor.validate key input = .success input := by
  refine validate_eq_success_iff.2 ⟨rfl, ha, ?_⟩
  rw [hb]
  intro b hmem
  obtain rfl := List.mem_singleton.1 hmem
  exact ⟨magnitude, hm, hadmits⟩

/-- **A tower with one bound lets something in exactly if the bound admits something.** -/
theorem exists_accepted_iff {descriptor : Descriptor leaf} {bound : Bound leaf.Measure}
    (hb : descriptor.bounds = [bound]) :
    (∃ input, ∀ key, descriptor.validate key input = .success input) ↔
      ∃ magnitude, bound.admits magnitude = true := by
  constructor
  · rintro ⟨input, h⟩
    have hmem : bound ∈ descriptor.bounds := by simp [hb]
    exact exists_admitted_of_accepted hmem (congrArg Outcome.isSuccess (h ""))
  · rintro ⟨magnitude, hadmits⟩
    obtain ⟨input, ha, hm⟩ := leaf.exists_of_measure magnitude
    exact ⟨input, validate_of_admitted hb ha hm hadmits⟩

theorem validate_boundedInt {bound : Bound Int64} {n : Int64} (h : bound.admits n = true)
    (key : String) : (boundedInt bound).validate key (.int n) = .success (.int n) := by
  have hm : Leaf.int.measure (.int n) = some n := Json.Number.toInt64?_ofInt64 n
  have ha : Leaf.int.accepts (.int n) = true := congrArg Option.isSome hm
  have hb : (boundedInt bound).bounds = [bound] := rfl
  exact validate_of_admitted hb ha hm h key

end Descriptor

namespace Definition

/-! ## Definitions -/

/-- Limits that are comparable with themselves and in order make a bound that admits something. -/
theorem exists_admitted_of_bound? {α : Type} [Magnitude α] [LawfulMagnitude α]
    (hself : ∀ a : α, atMost a a = true) {least greatest : Option α}
    (ho : ∀ a ∈ least, ∀ b ∈ greatest, atMost a b = true) {bound : Bound α}
    (h : bound? least greatest = some bound) : ∃ magnitude, bound.admits magnitude = true := by
  cases least with
  | none =>
    cases greatest with
    | none => cases h
    | some b =>
      cases h
      exact ⟨b, hself b⟩
  | some a =>
    cases greatest with
    | none =>
      cases h
      exact ⟨a, hself a⟩
    | some b =>
      cases h
      exact ⟨a, (Bound.admits_ends (ho a rfl b rfl)).1⟩

theorem flawless_of_build {definition : Definition} {scalar : Scalar}
    (h : definition.build = .ok scalar) : definition.flaws = [] := by
  rw [← List.head?_eq_none_iff, Option.eq_none_iff_forall_ne_some]
  intro flaw hf
  rw [build_of_flaw hf] at h
  cases h

/-- A definition without flaws has its limits in order. -/
theorem le_of_flawless {definition : Definition} (h : definition.flaws = []) :
    ∀ min ∈ definition.min, ∀ max ∈ definition.max, min ≤ max := by
  intro min hmin max hmax
  rw [Option.mem_def] at hmin hmax
  have hm : definition.misordered = [] := by
    rw [flaws, List.append_eq_nil_iff, List.append_eq_nil_iff] at h
    exact h.1.1
  rw [← Int64.not_lt]
  intro hlt
  simp [misordered, hmin, hmax, hlt] at hm

theorem asLength_le {a b : Int64} (h : a ≤ b) : asLength a ≤ asLength b :=
  Int.toNat_le_toNat (Int64.le_iff_toInt_le.1 h)

/-- **What is built can be satisfied**: it has one bound, and that admits something. -/
theorem exists_admitted_of_build {definition : Definition} {scalar : Scalar}
    (h : definition.build = .ok scalar) :
    ∃ bound, scalar.descriptor.bounds = [bound] ∧ ∃ magnitude, bound.admits magnitude = true := by
  have hf := flawless_of_build h
  have hle := le_of_flawless hf
  obtain ⟨factory, hfactory, hbuild⟩ := build_of_flawless hf
  obtain rfl : definition.finish factory = scalar := Except.ok.inj (hbuild.symm.trans h)
  have hbounds : (definition.finish factory).descriptor.bounds = factory.descriptor.bounds :=
    (bounds_describe definition _).trans (bounds_rename definition _)
  rw [hbounds]
  cases hb : definition.base with
  | string =>
    rw [factory?_string hb, Option.map_eq_some_iff] at hfactory
    obtain ⟨bound, hbound, rfl⟩ := hfactory
    refine ⟨bound, rfl,
      exists_admitted_of_bound? (fun n => atMost_nat_iff.2 (Nat.le_refl n)) ?_ hbound⟩
    simp only [Option.mem_def, Option.map_eq_some_iff, forall_exists_index, and_imp,
      forall_apply_eq_imp_iff₂]
    intro a ha b hb
    exact atMost_nat_iff.2 (asLength_le (hle a ha b hb))
  | int =>
    rw [factory?_int hb, Option.map_eq_some_iff] at hfactory
    obtain ⟨bound, hbound, rfl⟩ := hfactory
    refine ⟨bound, rfl,
      exists_admitted_of_bound? (fun n => atMost_int64_iff.2 (Int64.le_refl n)) ?_ hbound⟩
    intro a ha b hb
    exact atMost_int64_iff.2 (hle a ha b hb)

/-- **Satisfiable is not empty.** A range of integers, of lengths in 64 bits, or of doubles is
satisfiable exactly if it admits some magnitude of that kind. So a range over integers lets nothing
in if it is not satisfiable, whatever it is put around, and its own ends at least if it is. And
whatever is built from a definition lets something in. -/
theorem satisfiable_iff_inhabited :
    (∀ least greatest : Int64, Bound.rangeIsSatisfiable least greatest = true ↔
      ∃ n : Int64, (Bound.range least greatest).admits n = true) ∧
    (∀ least greatest : UInt64, Bound.rangeIsSatisfiable least.toNat greatest.toNat = true ↔
      ∃ n : UInt64, (Bound.range least.toNat greatest.toNat).admits n.toNat = true) ∧
    (∀ least greatest : Binary64, Bound.rangeIsSatisfiable least greatest = true ↔
      ∃ x : Binary64, (Bound.range least greatest).admits x = true) ∧
    (∀ (parent : Descriptor .int) (least greatest : Int64) (name : Option String)
      (description : String), Bound.rangeIsSatisfiable least greatest = false →
        ∀ key input, ((Descriptor.refined parent (.range least greatest) name
          description).validate key input).isSuccess = false) ∧
    (∀ least greatest : Int64, Bound.rangeIsSatisfiable least greatest = true → ∀ key,
      (boundedInt (.range least greatest)).validate key (.int least) = .success (.int least) ∧
      (boundedInt (.range least greatest)).validate key (.int greatest) =
        .success (.int greatest)) ∧
    (∀ (definition : Definition) (scalar : Scalar), definition.build = .ok scalar →
      ∃ input, ∀ key, scalar.validate key input = .success input) := by
  refine ⟨?_, ?_, ?_, ?_, ?_, ?_⟩
  · intro least greatest
    exact Bound.rangeIsSatisfiable_iff
  · intro least greatest
    constructor
    · intro h
      exact ⟨least, (Bound.admits_ends h).1⟩
    · rintro ⟨n, h⟩
      exact Bound.rangeIsSatisfiable_iff.2 ⟨n.toNat, h⟩
  · intro least greatest
    exact Bound.rangeIsSatisfiable_iff
  · intro parent least greatest name description hs key input
    have hmem : .range least greatest ∈
        (Descriptor.refined parent (.range least greatest) name description).bounds := by
      simp [Descriptor.bounds]
    rw [Bool.eq_false_iff] at hs ⊢
    intro h
    exact hs (Bound.rangeIsSatisfiable_iff.2 (Descriptor.exists_admitted_of_accepted hmem h))
  · intro least greatest h key
    obtain ⟨hl, hg⟩ := Bound.admits_ends h
    exact ⟨Descriptor.validate_boundedInt hl key, Descriptor.validate_boundedInt hg key⟩
  · intro definition scalar h
    obtain ⟨bound, hb, hs⟩ := exists_admitted_of_build h
    exact (Descriptor.exists_accepted_iff hb).2 hs

/-- The two zeros bound a range that admits something, and what is not a number bounds none; a range
of integers the wrong way round refuses even its ends, and the right way round takes them; a string
of no characters at all can be defined. -/
theorem satisfiable_iff_inhabited_edges :
    let zero (negative : Bool) : Binary64 := .finite (.zero negative)
    let inverted : Descriptor .int := .refined (.plain .int) (.range 5 1) none "An empty range."
    let empty : Definition := ⟨"Empty", .string, none, none, none, some 0⟩
    (∃ x, (Bound.range (zero false) (zero true)).admits x = true) ∧
    (¬ ∃ x, (Bound.range .nan (zero false)).admits x = true) ∧
    (inverted.validate "n" (.int 5)).isSuccess = false ∧
    (boundedInt (.range 1 5)).validate "n" (.int 5) = .success (.int 5) ∧
    ∃ scalar, empty.build = .ok scalar ∧
      ∃ input, ∀ key, scalar.validate key input = .success input := by
  intro zero inverted empty
  obtain ⟨-, -, hdouble, hrefused, hends, hbuilt⟩ := satisfiable_iff_inhabited
  refine ⟨(hdouble _ _).1 (by decide +kernel), mt (hdouble _ _).2 (by decide +kernel), ?_, ?_, ?_⟩
  · exact hrefused _ 5 1 none _ (by decide +kernel) "n" (.int 5)
  · exact (hends 1 5 (by decide +kernel) "n").2
  · exact ⟨_, rfl, hbuilt empty _ rfl⟩

end Definition

end SchemaScalar
