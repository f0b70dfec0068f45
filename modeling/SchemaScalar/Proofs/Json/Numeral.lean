import SchemaScalar.Json.Decoder
import SchemaScalar.Proofs.Text.Digits

/-!
# Numerals read back

A numeral of JSON is taken apart into the parts that it was put together from, however its exponent
is spelled (`scan_text`), if something follows that no numeral goes on with; in a document nothing
else does (`Follows`). Whether it is an integer, and which, is told by its parts (`Denotes`,
`exists_toInt64_iff`), so that an integer is read back from its decimal text (`number_decimal`).
-/

namespace SchemaScalar.Json

open Text (decimal decimalValue decimalValue_toDigits)

/-- What may stand after a value in a document: nothing, a comma or a closing bracket. -/
def Follows (rest : List Char) : Prop := ∀ c ∈ rest.head?, c = ',' ∨ c = ']' ∨ c = '\x7d'

/-- No numeral goes on with what stands after a value. -/
theorem Follows.ends {rest : List Char} (h : Follows rest) :
    ∀ c ∈ rest.head?, c.isDigit = false ∧ c ≠ '.' ∧ c ≠ 'e' ∧ c ≠ 'E' := by
  intro c hc
  obtain rfl | rfl | rfl := h c hc <;> decide

namespace Numeral

/-! ## Numerals as they are written -/

/-- At least one digit, and nothing else. -/
def IsDigits (ds : List Char) : Prop := ds ≠ [] ∧ ∀ c ∈ ds, c.isDigit = true

instance (ds : List Char) : Decidable (IsDigits ds) :=
  decidable_of_iff (ds ≠ [] ∧ ds.all Char.isDigit = true) (by rw [IsDigits, List.all_eq_true])

/-- Whether a numeral is one of JSON: no part lacks digits, and a zero starts its whole part only if
it stands alone. -/
structure IsProper (n : Numeral) : Prop where
  whole : IsDigits n.whole
  zeroAlone : n.whole.head? = some '0' → n.whole = ['0']
  fraction : ∀ ds ∈ n.fraction, IsDigits ds
  exponent : ∀ exponent ∈ n.exponent, IsDigits exponent.2

instance (n : Numeral) : Decidable n.IsProper :=
  decidable_of_iff (IsDigits n.whole ∧ (n.whole.head? = some '0' → n.whole = ['0']) ∧
      (∀ ds ∈ n.fraction, IsDigits ds) ∧ ∀ exponent ∈ n.exponent, IsDigits exponent.2)
    ⟨fun ⟨whole, zeroAlone, fraction, exponent⟩ => ⟨whole, zeroAlone, fraction, exponent⟩,
      fun h => ⟨h.whole, h.zeroAlone, h.fraction, h.exponent⟩⟩

/-- How an exponent is introduced: by a capital or a small letter, and, if it is not negative, with
a plus sign or without. -/
structure Spelling where
  capital : Bool
  plus : Bool
  deriving DecidableEq

def Spelling.sign (spelling : Spelling) (negative : Bool) : List Char :=
  if negative then ['-'] else if spelling.plus then ['+'] else []

/-- The text of a fraction, its point included. -/
def fractionText : Option (List Char) → List Char
  | none => []
  | some ds => '.' :: ds

/-- The text of an exponent, its letter included. -/
def exponentText (spelling : Spelling) : Option (Bool × List Char) → List Char
  | none => []
  | some (negative, ds) =>
    (if spelling.capital then 'E' else 'e') :: (spelling.sign negative ++ ds)

def text (n : Numeral) (spelling : Spelling) : List Char :=
  (if n.negative then ['-'] else []) ++
    (n.whole ++ (fractionText n.fraction ++ exponentText spelling n.exponent))

/-! ## Taking a numeral apart -/

theorem digits_append {ds rest : List Char} (hd : ∀ c ∈ ds, c.isDigit = true)
    (hr : ∀ c ∈ rest.head?, c.isDigit = false) : digits (ds ++ rest) = .ok (ds, rest) := by
  unfold digits
  rw [List.takeWhile_append_of_pos hd, List.dropWhile_append_of_pos hd]
  cases rest with
  | nil => simp
  | cons c rest => simp [hr c rfl]

theorem someDigits_append (atEnd : Malformed) {ds rest : List Char} (hd : IsDigits ds)
    (hr : ∀ c ∈ rest.head?, c.isDigit = false) :
    someDigits atEnd (ds ++ rest) = .ok (ds, rest) := by
  obtain ⟨hne, hall⟩ := hd
  have hread := digits_append hall hr
  obtain ⟨d, tail, rfl⟩ := List.exists_cons_of_ne_nil hne
  rw [List.cons_append, someDigits, if_pos (hall d List.mem_cons_self)]
  exact hread

theorem wholePart_append (atEnd : Malformed) {ds rest : List Char} (hd : IsDigits ds)
    (hzero : ds.head? = some '0' → ds = ['0']) (hr : ∀ c ∈ rest.head?, c.isDigit = false) :
    wholePart atEnd (ds ++ rest) = .ok (ds, rest) := by
  have hsome := someDigits_append atEnd hd hr
  obtain ⟨d, tail, rfl⟩ := List.exists_cons_of_ne_nil hd.1
  by_cases h0 : d = '0'
  · subst h0
    obtain rfl : tail = [] := (List.cons.inj (hzero rfl)).2
    cases rest with
    | nil => rfl
    | cons c rest => simp [wholePart, hr c rfl]
  · rw [wholePart]
    · exact hsome
    · intro c others htext
      exact h0 (List.cons.inj htext).1

theorem fractionPart_append (atEnd : Malformed) {fraction : Option (List Char)}
    {rest : List Char} (hd : ∀ ds ∈ fraction, IsDigits ds)
    (hr : ∀ c ∈ rest.head?, c.isDigit = false ∧ c ≠ '.') :
    fractionPart atEnd (fractionText fraction ++ rest) = .ok (fraction, rest) := by
  cases fraction with
  | none =>
    rw [fractionText, List.nil_append, fractionPart]
    rintro others rfl
    exact (hr '.' rfl).2 rfl
  | some ds =>
    obtain ⟨hne, hall⟩ := hd ds rfl
    have hread := digits_append hall fun c hc => (hr c hc).1
    obtain ⟨d, tail, rfl⟩ := List.exists_cons_of_ne_nil hne
    rw [List.cons_append] at hread
    simp only [fractionText, List.cons_append, fractionPart, hall d List.mem_cons_self, if_true,
      Reader.andThen, hread]
    rfl

theorem exponentSign_append (spelling : Spelling) (negative : Bool) {ds : List Char}
    (hd : IsDigits ds) (rest : List Char) :
    exponentSign (spelling.sign negative ++ (ds ++ rest)) = .ok (negative, ds ++ rest) := by
  obtain ⟨hne, hall⟩ := hd
  obtain ⟨d, tail, rfl⟩ := List.exists_cons_of_ne_nil hne
  have hdigit := hall d List.mem_cons_self
  unfold Spelling.sign
  cases negative with
  | true => rfl
  | false =>
    by_cases hplus : spelling.plus = true
    · rw [if_neg Bool.false_ne_true, if_pos hplus]
      rfl
    · rw [if_neg Bool.false_ne_true, if_neg hplus, List.nil_append, exponentSign]
      · rintro others htext
        rw [(List.cons.inj htext).1] at hdigit
        exact absurd hdigit (by decide)
      · rintro others htext
        rw [(List.cons.inj htext).1] at hdigit
        exact absurd hdigit (by decide)

theorem exponentPart_append (atEnd : Malformed) (spelling : Spelling)
    {exponent : Option (Bool × List Char)} {rest : List Char}
    (hd : ∀ e ∈ exponent, IsDigits e.2)
    (hr : ∀ c ∈ rest.head?, c.isDigit = false ∧ c ≠ 'e' ∧ c ≠ 'E') :
    exponentPart atEnd (exponentText spelling exponent ++ rest) = .ok (exponent, rest) := by
  cases exponent with
  | none =>
    rw [exponentText, List.nil_append]
    cases rest with
    | nil => rfl
    | cons c rest => simp only [exponentPart, (hr c rfl).2, or_self, if_false]
  | some exponent =>
    obtain ⟨negative, ds⟩ := exponent
    have hds : IsDigits ds := hd _ rfl
    have hread := someDigits_append atEnd hds fun c hc => (hr c hc).1
    have hletter : (if spelling.capital = true then 'E' else 'e') = 'e' ∨
        (if spelling.capital = true then 'E' else 'e') = 'E' := by
      cases spelling.capital
      · exact .inl rfl
      · exact .inr rfl
    simp only [exponentText, List.cons_append, List.append_assoc, exponentPart, if_pos hletter,
      Reader.bind_apply, exponentSign_append spelling negative hds, hread, Reader.pure_apply]

theorem head?_append_of_digits {ds : List Char} (hd : IsDigits ds) (rest : List Char) :
    ∀ c ∈ (ds ++ rest).head?, c.isDigit = true := by
  obtain ⟨hne, hall⟩ := hd
  obtain ⟨d, tail, rfl⟩ := List.exists_cons_of_ne_nil hne
  intro c hc
  obtain rfl := Option.some.inj hc
  exact hall d List.mem_cons_self

/-- **A numeral is taken apart into its parts**, if what follows may stand after a value. -/
theorem scan_text (atEnd : Malformed) {n : Numeral} (hn : n.IsProper) (spelling : Spelling)
    {rest : List Char} (h : Follows rest) :
    scan atEnd (n.text spelling ++ rest) = .ok (n, rest) := by
  obtain ⟨negative, whole, fraction, exponent⟩ := n
  obtain ⟨hwhole, hzero, hfraction, hexponent⟩ := hn
  have hends := h.ends
  have hafterFraction : ∀ c ∈ (exponentText spelling exponent ++ rest).head?,
      c.isDigit = false ∧ c ≠ '.' := by
    cases exponent with
    | none => exact fun c hc => ⟨(hends c hc).1, (hends c hc).2.1⟩
    | some exponent =>
      intro c hc
      obtain rfl := Option.some.inj hc
      cases spelling.capital <;> decide
  have hafterWhole : ∀ c ∈ (fractionText fraction ++
      (exponentText spelling exponent ++ rest)).head?, c.isDigit = false := by
    cases fraction with
    | none => exact fun c hc => (hafterFraction c hc).1
    | some ds =>
      intro c hc
      obtain rfl := Option.some.inj hc
      rfl
  have hsign : ∀ left, (∀ c ∈ left.head?, c.isDigit = true) →
      minusSign ((if negative then ['-'] else []) ++ left) = .ok (negative, left) := by
    intro left hleft
    cases negative with
    | true => rfl
    | false =>
      rw [if_neg Bool.false_ne_true, List.nil_append, minusSign]
      rintro others rfl
      exact absurd (hleft '-' rfl) (by decide)
  simp only [text, List.append_assoc]
  simp only [scan, Reader.bind_apply, hsign _ (head?_append_of_digits hwhole _),
    wholePart_append atEnd hwhole hzero hafterWhole,
    fractionPart_append atEnd hfraction hafterFraction,
    exponentPart_append atEnd spelling hexponent fun c hc => ⟨(hends c hc).1, (hends c hc).2.2⟩,
    Reader.pure_apply]

/-! ## Integers -/

/-- Only zero is written with a zero in front. -/
theorem tail_eq_nil_of_toDigits {n : Nat} {tail : List Char}
    (h : Nat.toDigits 10 n = '0' :: tail) : tail = [] := by
  refine Decidable.byContradiction fun hne => ?_
  have hpos : 0 < tail.length := List.length_pos_iff.2 hne
  have hdigit : ∀ c ∈ tail, c.isDigit = true := fun c hc =>
    Nat.isDigit_of_mem_toDigits (by decide) (by decide) (h ▸ List.mem_cons_of_mem _ hc)
  have hvalue : n = decimalValue tail := by
    rw [← decimalValue_toDigits n, h, Text.decimalValue_cons]
    simp
  have hlength : (Nat.toDigits 10 n).length ≤ tail.length :=
    (Nat.length_toDigits_le_iff (by decide) hpos).2 (hvalue ▸ Text.decimalValue_lt hdigit)
  rw [h, List.length_cons] at hlength
  omega

/-- The digits of an integer without superfluous zeros. -/
theorem isProper_toDigits (negative : Bool) (n : Nat) :
    IsProper ⟨negative, Nat.toDigits 10 n, none, none⟩ where
  whole := ⟨Nat.toDigits_ne_nil, fun _ => Nat.isDigit_of_mem_toDigits (by decide) (by decide)⟩
  zeroAlone := by
    intro h
    obtain ⟨tail, htail⟩ := List.head?_eq_some_iff.1 h
    rw [tail_eq_nil_of_toDigits htail] at htail
    exact htail
  fraction := by
    rintro _ ⟨⟩
  exponent := by
    rintro _ ⟨⟩

/-- An integer is taken apart into its sign and its digits. -/
theorem scan_decimal (atEnd : Malformed) (n : Int) {rest : List Char} (h : Follows rest) :
    scan atEnd (decimal n ++ rest) =
      .ok (⟨decide (n < 0), Nat.toDigits 10 n.natAbs, none, none⟩, rest) := by
  have htext : decimal n =
      text ⟨decide (n < 0), Nat.toDigits 10 n.natAbs, none, none⟩ ⟨false, false⟩ := by
    unfold decimal text
    by_cases hn : n < 0 <;> simp [hn, fractionText, exponentText]
  rw [htext]
  exact scan_text atEnd (isProper_toDigits _ _) _ h

/-- Whether a numeral is the given integer: it has neither fraction nor exponent, and is no negative
zero. -/
structure Denotes (n : Numeral) (k : Int) : Prop where
  fraction : n.fraction = none
  exponent : n.exponent = none
  notMinusZero : n.negative = true → 0 < decimalValue n.whole
  value : k = if n.negative then -(decimalValue n.whole : Int) else decimalValue n.whole

/-- **A numeral is an integer exactly if it is written as one and fits 64 bits**, signed or
unsigned. -/
theorem toInteger?_eq_some_iff {n : Numeral} {number : Number} :
    n.toInteger? = some number ↔
      ∃ k lower upper, n.Denotes k ∧ number = .integer k lower upper := by
  obtain ⟨negative, whole, fraction, exponent⟩ := n
  by_cases hplain : fraction.isSome || exponent.isSome
  · rw [toInteger?, if_pos hplain]
    refine iff_of_false (by rintro ⟨⟩) ?_
    rintro ⟨k, _, _, h, -⟩
    obtain rfl : fraction = none := h.fraction
    obtain rfl : exponent = none := h.exponent
    cases hplain
  · rw [toInteger?, if_neg hplain]
    have hfraction : fraction = none := by
      cases fraction with
      | none => rfl
      | some ds => exact absurd rfl hplain
    have hexponent : exponent = none := by
      cases exponent with
      | none => rfl
      | some e => exact absurd (Bool.or_true _) hplain
    dsimp only
    constructor
    · intro h
      split at h
      · next hneg =>
        split at h
        · next hm => exact ⟨_, _, _, ⟨hfraction, hexponent, fun _ => hm.1, by simp [hneg]⟩,
            (Option.some.inj h).symm⟩
        · cases h
      · next hneg =>
        split at h
        · exact ⟨_, _, _, ⟨hfraction, hexponent, fun h => absurd h hneg, by simp [hneg]⟩,
            (Option.some.inj h).symm⟩
        · cases h
    · rintro ⟨k, lower, upper, h, rfl⟩
      obtain ⟨-, -, hzero, hvalue⟩ := h
      dsimp only at hzero hvalue
      subst hvalue
      cases negative with
      | true =>
        have hpos := hzero rfl
        rw [if_pos rfl] at lower
        rw [if_pos rfl, dif_pos ⟨hpos, by omega⟩]
        rfl
      | false =>
        rw [if_neg Bool.false_ne_true] at upper
        rw [if_neg Bool.false_ne_true, dif_pos (by omega)]
        rfl

/-- **A numeral is taken as an integer of 64 bits with a sign exactly if it denotes one.** -/
theorem exists_toInt64_iff {n : Numeral} {k : Int64} :
    (∃ number, n.toNumber? = some number ∧ number.toInt64 = .ok k) ↔ n.Denotes k.toInt := by
  constructor
  · rintro ⟨number, hnumber, hk⟩
    cases hinteger : n.toInteger? with
    | some integer =>
      simp only [toNumber?, hinteger] at hnumber
      cases hnumber
      obtain ⟨m, lower, upper, hm, rfl⟩ := toInteger?_eq_some_iff.1 hinteger
      simp only [Number.toInt64] at hk
      split at hk
      · next hsmall =>
        cases hk
        rwa [Int64.toInt_ofInt_of_le (by omega) (by omega)]
      · cases hk
    | none =>
      simp only [toNumber?, hinteger, Option.map_eq_some_iff] at hnumber
      obtain ⟨x, -, rfl⟩ := hnumber
      cases hk
  · intro h
    have hlower := Int64.le_toInt k
    have hupper := Int64.toInt_lt k
    have hinteger : n.toInteger? = some (.integer k.toInt (by omega) (by omega)) :=
      toInteger?_eq_some_iff.2 ⟨_, _, _, h, rfl⟩
    refine ⟨_, by rw [toNumber?, hinteger], ?_⟩
    have hsmall : k.toInt < 0x8000000000000000 := by omega
    simp only [Number.toInt64, if_pos hsmall, Int64.ofInt_toInt]

end Numeral

/-- **An integer is read back**, if what follows may stand after a value. -/
theorem number_decimal (n : Int) (lower : -0x8000000000000000 ≤ n) (upper : n < 0x10000000000000000)
    {rest : List Char} (h : Follows rest) :
    Reader.number (decimal n ++ rest) = .ok (.integer n lower upper, rest) := by
  have hdenotes : Numeral.Denotes ⟨decide (n < 0), Nat.toDigits 10 n.natAbs, none, none⟩ n := by
    refine ⟨rfl, rfl, ?_, ?_⟩
    · intro hn
      have hn := of_decide_eq_true hn
      rw [decimalValue_toDigits]
      omega
    · simp only [decimalValue_toDigits, decide_eq_true_eq]
      split <;> omega
  have hinteger := Numeral.toInteger?_eq_some_iff.2 ⟨n, lower, upper, hdenotes, rfl⟩
  rw [Reader.number, Numeral.scan_decimal _ n h]
  simp only [Numeral.toNumber?, hinteger]

end SchemaScalar.Json
