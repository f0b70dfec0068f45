import SchemaScalar.Bound

/-!
# What bounds admit

A bound compares a magnitude with its ends. A range compares twice, and admits what both of its
sides admit (`Bound.admits_iff_sides`).

A range is satisfiable exactly if it admits something (`Bound.rangeIsSatisfiable_iff`). That takes
little of the order: doubles are not all comparable, not even with themselves, but a double that
stands on either side of a comparison is (`LawfulMagnitude`).
-/

namespace SchemaScalar

open Magnitude (atMost)

/-! ## Magnitudes in order -/

/-- An order on some of the magnitudes, those that are comparable with anything. -/
class LawfulMagnitude (α : Type) [Magnitude α] : Prop where
  trans : ∀ {a b c : α}, atMost a b = true → atMost b c = true → atMost a c = true
  refl_left : ∀ {a b : α}, atMost a b = true → atMost a a = true
  refl_right : ∀ {a b : α}, atMost a b = true → atMost b b = true

theorem atMost_nat_iff {a b : Nat} : atMost a b = true ↔ a ≤ b := decide_eq_true_iff

theorem atMost_int64_iff {a b : Int64} : atMost a b = true ↔ a ≤ b := decide_eq_true_iff

instance : LawfulMagnitude Nat where
  trans := by
    simp only [atMost_nat_iff]
    exact Nat.le_trans
  refl_left _ := atMost_nat_iff.2 (Nat.le_refl _)
  refl_right _ := atMost_nat_iff.2 (Nat.le_refl _)

instance : LawfulMagnitude Int64 where
  trans := by
    simp only [atMost_int64_iff]
    exact Int64.le_trans
  refl_left _ := atMost_int64_iff.2 (Int64.le_refl _)
  refl_right _ := atMost_int64_iff.2 (Int64.le_refl _)

namespace Binary64

/-- Whether a double is a number, finite or not. -/
def IsNumber (x : Binary64) : Prop := x ≠ nan

theorem atMost_self_iff {x : Binary64} : x.atMost x = true ↔ x.IsNumber := by
  rcases x with _ | negative | x
  · simp [Binary64.atMost, IsNumber]
  · cases negative <;> simp [Binary64.atMost, IsNumber]
  · simp [Binary64.atMost, IsNumber]

/-- Only numbers are compared. -/
theorem isNumber_of_atMost {x y : Binary64} (h : x.atMost y = true) : x.IsNumber ∧ y.IsNumber := by
  constructor
  · rintro rfl
    cases h
  · rintro rfl
    cases x <;> cases h

theorem atMost_trans {x y z : Binary64} (hxy : x.atMost y = true) (hyz : y.atMost z = true) :
    x.atMost z = true := by
  -- the infinities decide all cases but that of three finite doubles
  rcases x with _ | (_ | _) | x <;> rcases y with _ | (_ | _) | y <;>
    rcases z with _ | (_ | _) | z <;>
    simp_all only [Binary64.atMost, decide_eq_true_eq, Bool.false_eq_true]
  exact Int.le_trans hxy hyz

end Binary64

instance : LawfulMagnitude Binary64 where
  trans := Binary64.atMost_trans
  refl_left h := Binary64.atMost_self_iff.2 (Binary64.isNumber_of_atMost h).1
  refl_right h := Binary64.atMost_self_iff.2 (Binary64.isNumber_of_atMost h).2

namespace Bound

variable {α : Type}

/-! ## Sides -/

/-- The limits of a bound, each to one side. -/
def sides : Bound α → List (Bound α)
  | min least => [.min least]
  | max greatest => [.max greatest]
  | range least greatest => [.min least, .max greatest]

theorem sides_ne_nil (bound : Bound α) : bound.sides ≠ [] := by
  cases bound <;> simp [sides]

variable [Magnitude α]

/-- **A range is the conjunction of its sides**, whether or not they are in order. -/
theorem admits_iff_sides {bound : Bound α} {magnitude : α} :
    bound.admits magnitude = true ↔ ∀ side ∈ bound.sides, side.admits magnitude = true := by
  cases bound <;> simp [sides, admits]

/-! ## Satisfiable ranges -/

section Lawful

variable [LawfulMagnitude α]

/-- A range in order admits its own ends. -/
theorem admits_ends {least greatest : α} (h : rangeIsSatisfiable least greatest = true) :
    (range least greatest).admits least = true ∧ (range least greatest).admits greatest = true := by
  have hl : atMost least least = true := LawfulMagnitude.refl_left h
  have hg : atMost greatest greatest = true := LawfulMagnitude.refl_right h
  have hr : atMost least greatest = true := h
  simp [admits, hl, hg, hr]

/-- **A range is satisfiable exactly if it admits something.** -/
theorem rangeIsSatisfiable_iff {least greatest : α} :
    rangeIsSatisfiable least greatest = true ↔
      ∃ magnitude, (range least greatest).admits magnitude = true := by
  constructor
  · exact fun h => ⟨least, (admits_ends h).1⟩
  · rintro ⟨magnitude, h⟩
    obtain ⟨hl, hg⟩ : atMost least magnitude = true ∧ atMost magnitude greatest = true := by
      simpa [admits] using h
    exact LawfulMagnitude.trans hl hg

end Lawful

end Bound

end SchemaScalar
