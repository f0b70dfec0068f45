import Mathlib.Algebra.Group.Nat.Defs
import SchemaScalar.Text.Decimal

/-!
# Digits and the numbers they denote

Decimal digits read back as the number they were written for (`decimalValue_toDigits`), whether or
not zeros were put before them (`decimalValue_padded`), and a number in a field that is wide enough
fills it exactly (`length_padded`). No number has more digits than the power of ten that it stays
below (`decimalValue_lt`), and digits of one count with one value are the same
(`eq_of_decimalValue_eq`).
-/

namespace SchemaScalar.Text

/-! ## The number denoted by digits -/

theorem decimalValue_append (l m : List Char) :
    decimalValue (l ++ m) = 10 ^ m.length * decimalValue l + decimalValue m := by
  have h := Nat.ofDigitChars_append (b := 10) (l := l) (m := m) 0
  rw [Nat.ofDigitChars_eq_ofDigitChars_zero (l := m)] at h
  exact h

theorem decimalValue_cons (c : Char) (digits : List Char) :
    decimalValue (c :: digits) =
      10 ^ digits.length * (c.toNat - '0'.toNat) + decimalValue digits := by
  have h := decimalValue_append [c] digits
  simpa [decimalValue] using h

theorem toNat_of_isDigit {c : Char} (hc : c.isDigit = true) : 48 ≤ c.toNat ∧ c.toNat ≤ 57 :=
  Char.isDigit_iff_toNat.1 hc

theorem decimalValue_lt {digits : List Char} (hd : ∀ c ∈ digits, c.isDigit = true) :
    decimalValue digits < 10 ^ digits.length := by
  induction digits with
  | nil => decide
  | cons c digits ih =>
    have hc := (toNat_of_isDigit (hd c (by simp))).2
    have hrest := ih fun d hmem => hd d (List.mem_cons_of_mem c hmem)
    have hdigit : c.toNat - '0'.toNat + 1 ≤ 10 := by
      have h0 : '0'.toNat = 48 := rfl
      omega
    calc decimalValue (c :: digits)
        = 10 ^ digits.length * (c.toNat - '0'.toNat) + decimalValue digits :=
          decimalValue_cons c digits
      _ < 10 ^ digits.length * (c.toNat - '0'.toNat) + 10 ^ digits.length := by omega
      _ = 10 ^ digits.length * (c.toNat - '0'.toNat + 1) := by rw [Nat.mul_succ]
      _ ≤ 10 ^ digits.length * 10 := Nat.mul_le_mul_left _ hdigit

theorem decimalValue_zeros (n : Nat) : decimalValue (List.replicate n '0') = 0 := by
  have h : decimalValue (List.replicate n '0') = 10 ^ n * 0 := Nat.ofDigitChars_replicate_zero
  rw [h, Nat.mul_zero]

theorem decimalValue_toDigits (n : Nat) : decimalValue (Nat.toDigits 10 n) = n :=
  Nat.ofDigitChars_ten_toDigits

/-- Digits are known by their count and the number that they denote. -/
theorem eq_of_decimalValue_eq {digits others : List Char} (hd : ∀ c ∈ digits, c.isDigit = true)
    (ho : ∀ c ∈ others, c.isDigit = true) (hl : digits.length = others.length)
    (hv : decimalValue digits = decimalValue others) : digits = others := by
  induction digits generalizing others with
  | nil => exact (List.length_eq_zero_iff.1 hl.symm).symm
  | cons c digits ih =>
    cases others with
    | nil => cases hl
    | cons d others =>
      have hlen : digits.length = others.length := Nat.succ.inj hl
      rw [List.forall_mem_cons] at hd ho
      have hlt := decimalValue_lt hd.2
      have hlt' := decimalValue_lt ho.2
      rw [decimalValue_cons, decimalValue_cons, ← hlen] at hv
      rw [← hlen] at hlt'
      -- the first digit is the quotient by a power of ten, the others are the remainder
      have hfirst := congrArg (· / 10 ^ digits.length) hv
      have hothers := congrArg (· % 10 ^ digits.length) hv
      simp only [Nat.mul_add_div (Nat.pow_pos (by decide : 0 < 10)), Nat.div_eq_of_lt hlt,
        Nat.div_eq_of_lt hlt', Nat.add_zero] at hfirst
      simp only [Nat.mul_add_mod, Nat.mod_eq_of_lt hlt, Nat.mod_eq_of_lt hlt'] at hothers
      have hc := toNat_of_isDigit hd.1
      have hc' := toNat_of_isDigit ho.1
      have h0 : '0'.toNat = 48 := rfl
      obtain rfl : c = d := Char.toNat_inj.1 (by omega)
      rw [ih hd.2 ho.2 hlen hothers]

/-! ## Numbers in a field of fixed width -/

theorem decimalValue_padded (width n : Nat) : decimalValue (padded width n) = n := by
  unfold padded
  rw [decimalValue_append, decimalValue_zeros, decimalValue_toDigits, Nat.mul_zero, Nat.zero_add]

theorem isDigit_of_mem_padded {width n : Nat} {c : Char} (h : c ∈ padded width n) :
    c.isDigit = true := by
  rcases List.mem_append.1 h with h | h
  · rw [(List.mem_replicate.1 h).2]; rfl
  · exact Nat.isDigit_of_mem_toDigits (by decide) (by decide) h

/-- A field that is wide enough is filled exactly. -/
theorem length_padded {width n : Nat} (hw : 0 < width) (hn : n < 10 ^ width) :
    (padded width n).length = width := by
  have hl := (Nat.length_toDigits_le_iff (b := 10) (n := n) (by decide) hw).2 hn
  simp only [padded, List.length_append, List.length_replicate]
  omega

theorem padded_ne_nil (width n : Nat) : padded width n ≠ [] :=
  List.append_ne_nil_of_right_ne_nil _ Nat.toDigits_ne_nil

/-- A field of the right width holds the digits of the number that they denote. -/
theorem padded_decimalValue {digits : List Char} (hd : ∀ c ∈ digits, c.isDigit = true)
    (hne : 0 < digits.length) : padded digits.length (decimalValue digits) = digits :=
  eq_of_decimalValue_eq (fun _ => isDigit_of_mem_padded) hd
    (length_padded hne (decimalValue_lt hd)) (decimalValue_padded _ _)

end SchemaScalar.Text
