import Mathlib.Data.Rat.Floor
import Mathlib.Tactic.FieldSimp
import Mathlib.Tactic.Linarith
import Mathlib.Tactic.NormNum
import SchemaScalar.Decimal.Rounding

/-!
# The exact values of doubles

A double denotes a dyadic fraction. `value` is that fraction as the binary interchange format has
it, from the exponent and the fraction of its rank; counted in the smallest positive double it is
`signedUnits` (`value_eq`), so that `truncate` is truncation of the exact value
(`truncate_eq_towardZero`). Rounding to the nearest double keeps to the side of a power of two
(`two_pow_le_truncate`).
-/

namespace SchemaScalar

/-- The whole number next to a fraction on the side of zero. -/
def towardZero (q : ℚ) : ℤ := if 0 ≤ q then ⌊q⌋ else ⌈q⌉

theorem towardZero_intCast (n : ℤ) : towardZero n = n := by
  unfold towardZero
  split
  · exact Int.floor_intCast n
  · exact Int.ceil_intCast n

theorem towardZero_div (a : ℤ) {b : ℕ} (hb : 0 < b) : towardZero (a / b) = a.tdiv b := by
  have hq : (0 : ℚ) < b := Nat.cast_pos.2 hb
  unfold towardZero
  by_cases ha : 0 ≤ a
  · rw [if_pos (div_nonneg (Int.cast_nonneg ha) hq.le), Rat.floor_intCast_div_natCast,
      Int.tdiv_eq_ediv_of_nonneg ha]
  · have hneg : (a : ℚ) / b < 0 := div_neg_of_neg_of_pos (Int.cast_lt_zero.2 (by omega)) hq
    rw [if_neg (not_le.2 hneg), Rat.ceil_intCast_div_natCast,
      ← Int.tdiv_eq_ediv_of_nonneg (by omega), Int.neg_tdiv, neg_neg]

namespace Binary64

namespace Finite

/-! ## Values -/

/-- The exact value of a double. Its rank is made of an exponent and of 52 bits of fraction, before
which a further bit is understood unless the exponent is zero. -/
def value (x : Finite) : ℚ :=
  let exponent : ℕ := x.rank / 2 ^ 52
  let fraction : ℕ := x.rank % 2 ^ 52
  let magnitude : ℚ :=
    if exponent = 0 then fraction * 2 ^ (-1074 : ℤ)
    else (2 ^ 52 + fraction) * 2 ^ ((exponent : ℤ) - 1075)
  if x.negative then -magnitude else magnitude

theorem unitsPerOne_eq : unitsPerOne = 2 ^ 1074 := by
  unfold unitsPerOne
  -- no power of this size should be evaluated
  generalize (1074 : ℕ) = k
  exact Nat.one_shiftLeft k

theorem unitsPerOne_pos : 0 < unitsPerOne := by
  rw [unitsPerOne_eq]
  positivity

theorem units_of_small {x : Finite} (h : x.rank < 2 ^ 52) : x.units = x.rank := by
  have hs : x.significand = x.rank := if_pos h
  have hz : x.rank / 2 ^ 52 = 0 := Nat.div_eq_of_lt h
  rw [units, shift, hs, Nat.shiftRight_eq_div_pow, hz]
  rfl

theorem units_of_large {x : Finite} (h : 2 ^ 52 ≤ x.rank) :
    x.units = (2 ^ 52 + x.rank % 2 ^ 52) * 2 ^ (x.rank / 2 ^ 52 - 1) := by
  have hs : x.significand = 2 ^ 52 + x.rank % 2 ^ 52 := if_neg (Nat.not_lt.2 h)
  rw [units, shift, hs, Nat.shiftRight_eq_div_pow, Nat.shiftLeft_eq]

/-- The exact value, counted in the smallest positive double. -/
theorem value_eq (x : Finite) : x.value = x.signedUnits / unitsPerOne := by
  have hmagnitude : (if x.rank / 2 ^ 52 = 0 then ((x.rank % 2 ^ 52 : ℕ) : ℚ) * 2 ^ (-1074 : ℤ)
      else (2 ^ 52 + (x.rank % 2 ^ 52 : ℕ)) * 2 ^ (((x.rank / 2 ^ 52 : ℕ) : ℤ) - 1075)) =
      x.units / unitsPerOne := by
    rw [unitsPerOne_eq, Nat.cast_pow, Nat.cast_ofNat]
    by_cases h : x.rank < 2 ^ 52
    · rw [if_pos (Nat.div_eq_of_lt h), units_of_small h, Nat.mod_eq_of_lt h, zpow_neg]
      rfl
    · have hexponent : 1 ≤ x.rank / 2 ^ 52 := by omega
      rw [if_neg (by omega), units_of_large (not_lt.1 h)]
      have hpow : ((x.rank / 2 ^ 52 : ℕ) : ℤ) - 1075 =
          ((x.rank / 2 ^ 52 - 1 : ℕ) : ℤ) - (1074 : ℕ) := by omega
      rw [hpow, zpow_sub₀ two_ne_zero, zpow_natCast, zpow_natCast, ← mul_div_assoc]
      generalize (2 : ℚ) ^ 1074 = scale
      push_cast
      rfl
  simp only [value, signedUnits, hmagnitude]
  split
  · rw [Int.cast_neg, Int.cast_natCast, neg_div]
  · rw [Int.cast_natCast]

/-- **Truncation of a double is truncation of its exact value.** -/
theorem truncate_eq_towardZero (x : Finite) : x.truncate = towardZero x.value := by
  rw [value_eq, towardZero_div _ unitsPerOne_pos, truncate]

/-! ## Powers of two -/

/-- The least rank of an exponent is that of a power of two. -/
theorem two_pow_le_units {x : Finite} {k : ℕ} (h : (k + 1) * 2 ^ 52 ≤ x.rank) :
    2 ^ (k + 52) ≤ x.units := by
  have hexponent : k ≤ x.rank / 2 ^ 52 - 1 := by omega
  have hlarge : 2 ^ 52 ≤ x.rank := by omega
  rw [units_of_large hlarge, Nat.pow_add, Nat.mul_comm]
  exact Nat.mul_le_mul (Nat.le_add_right _ _) (Nat.pow_le_pow_right (by decide) hexponent)

end Finite

theorem div_le_divNearest (num den : ℕ) : num / den ≤ divNearest num den := by
  unfold divNearest
  dsimp only
  split
  · exact le_rfl
  · split <;> omega

/-- A number of at least a power of two is not rounded to a rank below that power. -/
theorem le_nearestRank {num k : ℕ} (h : 2 ^ (k + 52) ≤ num * Finite.unitsPerOne) :
    (k + 1) * 2 ^ 52 ≤ nearestRank num 1 := by
  unfold nearestRank
  dsimp only
  rw [Nat.div_one]
  generalize num * Finite.unitsPerOne = units at h ⊢
  have hne : units ≠ 0 := by
    have := Nat.two_pow_pos (k + 52)
    omega
  have hlog : k + 52 ≤ units.log2 := (Nat.le_log2 hne).2 h
  obtain ⟨shift, hshift⟩ : ∃ shift, units.log2 = shift + 52 := ⟨units.log2 - 52, by omega⟩
  have hquotient : 2 ^ 52 ≤ units / 2 ^ shift := by
    rw [Nat.le_div_iff_mul_le (Nat.two_pow_pos shift), ← Nat.pow_add, Nat.add_comm, ← hshift]
    exact Nat.log2_self_le hne
  have hnearest := div_le_divNearest units (2 ^ shift)
  simp only [hshift, Nat.add_sub_cancel, Nat.shiftLeft_eq, one_mul]
  omega

/-- **Rounding a whole number to a double does not take it below a power of two.** -/
theorem two_pow_le_truncate {n : ℤ} {j : ℕ} (h : 2 ^ j ≤ n) {x : Finite}
    (hx : ofInt n = .finite x) : 2 ^ j ≤ x.truncate := by
  have hn : 2 ^ j ≤ n.natAbs := by
    zify
    rw [abs_of_nonneg (le_trans (by positivity) h)]
    exact h
  have hscale : 2 ^ (j + 1022 + 52) = 2 ^ j * Finite.unitsPerOne := by
    rw [Finite.unitsPerOne_eq, ← Nat.pow_add]
  have hrank : (j + 1022 + 1) * 2 ^ 52 ≤ nearestRank n.natAbs 1 := by
    apply le_nearestRank
    rw [hscale]
    exact Nat.mul_le_mul_right _ hn
  unfold ofInt ofRatio at hx
  split at hx
  · cases hx
    have hunits :=
      Finite.two_pow_le_units (x := ⟨decide (n < 0), nearestRank n.natAbs 1, ‹_›⟩) hrank
    have hsign : ¬ n < 0 := not_lt.2 (le_trans (by positivity) h)
    rw [Finite.truncate, Finite.signedUnits, if_neg (by simpa using hsign), ← Int.ofNat_tdiv]
    rw [hscale, ← Nat.le_div_iff_mul_le Finite.unitsPerOne_pos] at hunits
    exact_mod_cast hunits
  · cases hx

end Binary64

end SchemaScalar
