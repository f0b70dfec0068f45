import SchemaScalar.Proofs.Decimal.Exact
import SchemaScalar.Proofs.Descriptor.Tower

/-!
# Integers from wire numbers

A wire number is read as an integer by dropping its fraction. The number may be an integer of 64
bits, with a sign or without, or a double, and the reading passes through a double where the integer
is too large. `truncateNumber_eq` says that nothing of this shows: the result is that of the exact
value, and a result that does not fit is refused, neither wrapped nor brought into range.
-/

namespace SchemaScalar

def Json.Number.value : Json.Number → ℚ
  | .integer n _ _ => n
  | .float x => x.value

/-- The whole numbers of 64 bits with a sign. -/
def FitsInt64 (n : ℤ) : Prop := -2 ^ 63 ≤ n ∧ n ≤ 2 ^ 63 - 1

instance (n : ℤ) : Decidable (FitsInt64 n) := inferInstanceAs (Decidable (_ ∧ _))

theorem toInt_ofInt_of_fits {n : ℤ} (h : FitsInt64 n) : (Int64.ofInt n).toInt = n := by
  obtain ⟨hlower, hupper⟩ := h
  exact Int64.toInt_ofInt_of_le (by omega) (by omega)

/-! ## Numbers -/

/-- A number that is no integer in the range is held against it as a double. -/
theorem truncateNumber_of_toBinary64 {number : Json.Number} {x : Binary64}
    (hnone : number.toInt64? = none) (hx : number.toBinary64 = x)
    (hlarge : ∀ y, x = .finite y → 2 ^ 63 ≤ y.truncate) :
    truncateNumber number = .error (.integerOverflow number) := by
  unfold truncateNumber
  rw [hnone, hx]
  cases x with
  | nan => rfl
  | infinite _ => rfl
  | finite y =>
    have hy := hlarge y rfl
    exact if_neg (by omega)

/-- An integer beyond the range is beyond it after rounding too: the range ends at a power of
two. -/
theorem truncateNumber_of_large {n : ℤ} (lower : -0x8000000000000000 ≤ n)
    (upper : n < 0x10000000000000000) (h : 2 ^ 63 ≤ n) :
    truncateNumber (.integer n lower upper) =
      .error (.integerOverflow (.integer n lower upper)) := by
  have hnone : Json.Number.toInt64? (.integer n lower upper) = none := if_neg (by omega)
  refine truncateNumber_of_toBinary64 hnone (Json.Number.toBinary64.eq_1 n lower upper) ?_
  intro y hy
  exact Binary64.two_pow_le_truncate h hy

/-- **A number is read as the whole number next to its exact value on the side of zero**, or is
refused if that does not fit. -/
theorem truncateNumber_eq (number : Json.Number) :
    truncateNumber number =
      if FitsInt64 (towardZero number.value) then .ok (Int64.ofInt (towardZero number.value))
      else .error (.integerOverflow number) := by
  cases number with
  | integer n lower upper =>
    have hvalue : towardZero (Json.Number.value (.integer n lower upper)) = n :=
      towardZero_intCast n
    rw [hvalue]
    by_cases h : FitsInt64 n
    · have hsome : Json.Number.toInt64? (.integer n lower upper) = some (Int64.ofInt n) :=
        if_pos (by have := h.2; omega)
      rw [if_pos h, truncateNumber, hsome]
    · rw [if_neg h]
      refine truncateNumber_of_large lower upper ?_
      unfold FitsInt64 at h
      omega
  | float x =>
    have hvalue : towardZero (Json.Number.value (.float x)) = x.truncate :=
      x.truncate_eq_towardZero.symm
    have hrange : (-0x8000000000000000 ≤ x.truncate ∧ x.truncate < 0x8000000000000000) ↔
        FitsInt64 x.truncate := by
      unfold FitsInt64
      omega
    rw [hvalue]
    show (if _ then _ else _) = _
    simp only [hrange]

/-! ## Towers -/

namespace Descriptor

/-- **Integers are never wrapped, clamped or rounded.** Every tower over integers reads a wire
number, of whatever shape, as an integer exactly if its exact value, truncated toward zero, is a
whole number of 64 bits with a sign, and then as that number; every other number is refused and
cited in its own digits. Integers from 2 ^ 63 on, though rounded before they are held against the
range, are all among the latter. -/
theorem deserialize_int (descriptor : Descriptor .int) (number : Json.Number) :
    ((∃ n, descriptor.deserialize number = .ok n) ↔ FitsInt64 (towardZero number.value)) ∧
    (∀ n, descriptor.deserialize number = .ok n → n.toInt = towardZero number.value) ∧
    (¬ FitsInt64 (towardZero number.value) →
      descriptor.deserialize number = .error (.integerOverflow number)) ∧
    (ConversionError.integerOverflow number).message =
      "number " ++ (Json.number number).print ++ " does not fit in a 64-bit signed integer" ∧
    (∀ n lower upper, number = .integer n lower upper → 2 ^ 63 ≤ n →
      descriptor.deserialize number = .error (.integerOverflow number)) := by
  have heq : descriptor.deserialize number =
      if FitsInt64 (towardZero number.value) then .ok (Int64.ofInt (towardZero number.value))
      else .error (.integerOverflow number) := by
    rw [deserialize_eq]
    exact truncateNumber_eq number
  rw [heq]
  refine ⟨?_, ?_, ?_, ?_, ?_⟩
  · split
    · next h => exact iff_of_true ⟨_, rfl⟩ h
    · next h => exact iff_of_false (by rintro ⟨n, hn⟩; cases hn) h
  · intro n hn
    split at hn
    · next h =>
      cases hn
      exact toInt_ofInt_of_fits h
    · cases hn
  · intro h
    exact if_neg h
  · rw [Json.print, Json.write]
    rfl
  · rintro n lower upper rfl h
    refine if_neg ?_
    rw [Json.Number.value, towardZero_intCast]
    unfold FitsInt64
    omega

/-- The largest unsigned integer, which rounds to 2 ^ 64, is refused below a refinement, and so is
the double 2 ^ 63; the double next to -3.9 is read as -3. -/
theorem deserialize_int_edges :
    let required : Descriptor .int := .nonNull (.bare "")
    let positive : Descriptor .int := .refined required (.min 1) none ""
    let largest : Json.Number := .integer 0xFFFFFFFFFFFFFFFF (by decide) (by decide)
    let wide : Json.Number := .float ⟨false, 0x43E0000000000000, by decide⟩
    let fraction : Json.Number := .float ⟨true, 0x400F333333333333, by decide⟩
    positive.deserialize largest = .error (.integerOverflow largest) ∧
    positive.deserialize wide = .error (.integerOverflow wide) ∧
    ∃ n, required.deserialize fraction = .ok n ∧ n.toInt = -3 := by
  intro required positive largest wide fraction
  obtain ⟨-, -, -, -, hlarge⟩ := deserialize_int positive largest
  obtain ⟨-, -, hrefuses, -, -⟩ := deserialize_int positive wide
  obtain ⟨hfits, hvalue, -, -, -⟩ := deserialize_int required fraction
  have hwide : towardZero wide.value = 2 ^ 63 :=
    (Binary64.Finite.truncate_eq_towardZero _).symm.trans (by decide +kernel)
  have hfraction : towardZero fraction.value = -3 :=
    (Binary64.Finite.truncate_eq_towardZero _).symm.trans (by decide +kernel)
  refine ⟨hlarge _ _ _ rfl (by decide), hrefuses ?_, ?_⟩
  · rw [hwide]
    decide
  · rw [hfraction] at hfits hvalue
    obtain ⟨n, hn⟩ := hfits.2 (by decide)
    exact ⟨n, hn, hvalue n hn⟩

end Descriptor

end SchemaScalar
