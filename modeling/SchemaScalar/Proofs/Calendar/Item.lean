import SchemaScalar.Calendar.Iso8601
import SchemaScalar.Proofs.Text.Digits

/-!
# What items take off a text

One lemma for each kind of item says what it takes off the front of a text that has the item's form,
and what it notes; `Layout.take_cons` chains them along a layout.
-/

namespace SchemaScalar.Calendar

open Text (decimalValue padded decimalValue_append decimalValue_lt decimalValue_padded
  isDigit_of_mem_padded length_padded padded_ne_nil)

/-- Once something is taken, what follows it goes on from there. -/
theorem ok_bind {α β : Type} (a : α) (f : α → Except Problem β) : (Except.ok a >>= f) = f a := rfl

/-! ## Digits -/

theorem takeExactly_append {digits : List Char} (hd : ∀ c ∈ digits, c.isDigit = true)
    (rest : List Char) : takeExactly digits.length (digits ++ rest) = .ok (digits, rest) := by
  have hany : digits.any (fun c => !c.isDigit) = false := by simpa using hd
  simp [takeExactly, hany]

theorem takeExactly_padded {width n : Nat} (hw : 0 < width) (hn : n < 10 ^ width)
    (rest : List Char) :
    takeExactly width (padded width n ++ rest) = .ok (padded width n, rest) := by
  have hd : ∀ c ∈ padded width n, c.isDigit = true := fun _ => isDigit_of_mem_padded
  have h := takeExactly_append hd rest
  rwa [length_padded hw hn] at h

/-- Digits are taken up to the limit, or up to the first character that is none. -/
theorem takeDigits_append {digits rest : List Char} (limit : Nat)
    (hd : ∀ c ∈ digits, c.isDigit = true) (hne : digits ≠ []) (hlim : digits.length ≤ limit)
    (hr : digits.length = limit ∨ ∀ c ∈ rest.head?, c.isDigit = false) :
    takeDigits limit (digits ++ rest) = .ok (digits, rest) := by
  have hend : (rest.take (limit - digits.length)).takeWhile Char.isDigit = [] := by
    rcases hr with hr | hr
    · simp [hr]
    · cases rest with
      | nil => simp
      | cons c rest =>
        cases limit - digits.length <;> simp [hr c rfl]
  have htake : ((digits ++ rest).take limit).takeWhile Char.isDigit = digits := by
    rw [List.take_append, List.take_of_length_le hlim, List.takeWhile_append_of_pos hd, hend,
      List.append_nil]
  obtain ⟨c, tail, rfl⟩ := List.exists_cons_of_ne_nil hne
  unfold takeDigits
  simp only [List.cons_append] at htake ⊢
  rw [htake]
  simp [hd c (by simp)]

theorem takeDigits_padded {width n : Nat} (hw : 0 < width) (hn : n < 10 ^ width)
    (rest : List Char) :
    takeDigits width (padded width n ++ rest) = .ok (padded width n, rest) :=
  takeDigits_append width (fun _ => isDigit_of_mem_padded) (padded_ne_nil width n)
    (Nat.le_of_eq (length_padded hw hn)) (.inl (length_padded hw hn))

/-! ## White space -/

theorem isBlank_of_isDigit {c : Char} (hc : c.isDigit = true) : Text.isBlank c = false := by
  have h := Text.toNat_of_isDigit hc
  -- digits lie between the space and the first white space beyond ASCII
  simp only [Text.isBlank, Text.blankRanges, Text.Ranges.contains]
  rw [if_neg (by omega), if_neg (by omega), if_pos (by omega), decide_eq_false (by omega)]

theorem dropBlanks_of_head {text : List Char} (h : ∀ c ∈ text.head?, Text.isBlank c = false) :
    dropBlanks text = text := by
  cases text with
  | nil => rfl
  | cons c rest => simp [dropBlanks, h c rfl]

theorem isDigit_head_padded (width n : Nat) (rest : List Char) :
    ∀ c ∈ (padded width n ++ rest).head?, c.isDigit = true := by
  intro c hc
  obtain ⟨first, others, h⟩ := List.exists_cons_of_ne_nil (padded_ne_nil width n)
  rw [h] at hc
  obtain rfl : first = c := Option.some.inj hc
  exact isDigit_of_mem_padded (h ▸ List.mem_cons_self)

theorem dropBlanks_padded (width n : Nat) (rest : List Char) :
    dropBlanks (padded width n ++ rest) = padded width n ++ rest :=
  dropBlanks_of_head fun c hc => isBlank_of_isDigit (isDigit_head_padded width n rest c hc)

/-! ## Fractions -/

/-- **The digits after a point mean that fraction of a second**, rounded down to nanoseconds. -/
theorem nanosOf_eq {digits : List Char} (hd : ∀ c ∈ digits, c.isDigit = true) :
    nanosOf digits = decimalValue digits * 10 ^ 9 / 10 ^ digits.length := by
  have hpow : ∀ k, Nat.pow 10 k = 10 ^ k := fun _ => rfl
  simp only [nanosOf, hpow]
  by_cases h9 : digits.length ≤ 9
  · have hp : 10 ^ 9 = 10 ^ (9 - digits.length) * 10 ^ digits.length := by
      rw [← Nat.pow_add, Nat.sub_add_cancel h9]
    rw [List.take_of_length_le h9, hp, ← Nat.mul_assoc,
      Nat.mul_div_cancel _ (Nat.pow_pos (by decide))]
  · have hkept : (digits.take 9).length = 9 := by rw [List.length_take]; omega
    have hp : 10 ^ digits.length = 10 ^ (digits.drop 9).length * 10 ^ 9 := by
      rw [← Nat.pow_add, List.length_drop, Nat.sub_add_cancel (by omega)]
    have hsplit := decimalValue_append (digits.take 9) (digits.drop 9)
    have hlt : decimalValue (digits.drop 9) < 10 ^ (digits.drop 9).length :=
      decimalValue_lt fun c hc => hd c (List.mem_of_mem_drop hc)
    rw [List.take_append_drop] at hsplit
    rw [hkept, hp, Nat.mul_div_mul_right _ _ (Nat.pow_pos (by decide)), hsplit,
      Nat.mul_add_div (Nat.pow_pos (by decide)), Nat.div_eq_of_lt hlt, Nat.sub_self, Nat.pow_zero,
      Nat.mul_one, Nat.add_zero]

theorem nanosOf_lt {digits : List Char} (hd : ∀ c ∈ digits, c.isDigit = true) :
    nanosOf digits < 1000000000 := by
  rw [nanosOf_eq hd, Nat.div_lt_iff_lt_mul (Nat.pow_pos (by decide)), Nat.mul_comm]
  exact Nat.mul_lt_mul_of_pos_left (decimalValue_lt hd) (by decide)

/-- Up to nine digits count the nanoseconds in units of the last of them. -/
theorem nanosOf_padded {width n : Nat} (hw : 0 < width) (h9 : width ≤ 9) (hn : n < 10 ^ width) :
    nanosOf (padded width n) = n * 10 ^ (9 - width) := by
  have hl := length_padded hw hn
  simp only [nanosOf]
  rw [List.take_of_length_le (by omega), decimalValue_padded, hl]
  rfl

/-! ## Fields of one or two digits -/

def Part.put (part : Part) (reading : Reading) (n : Nat) : Reading :=
  match part with
  | month => { reading with month := n }
  | day => { reading with day := n }
  | hour => { reading with hour := n }
  | minute => { reading with minute := n }
  | second => { reading with second := n }

theorem Part.note_eq (part : Part) (reading : Reading) (n : Nat) :
    part.note reading n =
      if n < part.range.1 ∨ part.range.2 < n then .error .outOfRange
      else .ok (part.put reading n) := by
  cases part <;> rfl

theorem Part.note_of_range {part : Part} {n : Nat} (h : part.range.1 ≤ n ∧ n ≤ part.range.2)
    (reading : Reading) : part.note reading n = .ok (part.put reading n) := by
  rw [note_eq, if_neg (by omega)]

theorem Part.range_lt (part : Part) : part.range.2 < 100 := by
  cases part <;> decide

namespace Item

theorem take_fraction_digits {digits rest : List Char} (hd : ∀ c ∈ digits, c.isDigit = true)
    (hne : digits ≠ []) (hr : ∀ c ∈ rest.head?, c.isDigit = false) (reading : Reading) :
    fraction.take reading ('.' :: (digits ++ rest)) =
      .ok ({ reading with nanos := nanosOf digits }, rest) := by
  have h := takeDigits_append (digits ++ rest).length hd hne (by simp) (.inr hr)
  simp only [take, h]
  rfl

theorem take_fraction_none {text : List Char} (h : text.head? ≠ some '.') (reading : Reading) :
    fraction.take reading text = .ok (reading, text) := by
  simp only [take]
  split
  · simp at h
  · rfl

/-- A written fraction is read back, whatever its count of digits. -/
theorem take_fractionText {nanos : Nat} (hn : nanos < 1000000000) {rest : List Char}
    (hr : ∀ c ∈ rest.head?, c.isDigit = false ∧ c ≠ '.') {reading : Reading}
    (h0 : reading.nanos = 0) :
    fraction.take reading (fractionText nanos ++ rest) =
      .ok ({ reading with nanos := nanos }, rest) := by
  have hd {width n : Nat} : ∀ c ∈ padded width n, c.isDigit = true := fun _ => isDigit_of_mem_padded
  have hr' : ∀ c ∈ rest.head?, c.isDigit = false := fun c hc => (hr c hc).1
  unfold fractionText
  split
  · next hz =>
    have hdot : rest.head? ≠ some '.' := fun h => (hr '.' h).2 rfl
    rw [List.nil_append, take_fraction_none hdot, hz, ← h0]
  split
  · next h6 =>
    have hv : nanos / 1000000 * 10 ^ (9 - 3) = nanos := by omega
    rw [List.cons_append, take_fraction_digits hd (padded_ne_nil _ _) hr',
      nanosOf_padded (by omega) (by omega) (by omega), hv]
  split
  · next h3 =>
    have hv : nanos / 1000 * 10 ^ (9 - 6) = nanos := by omega
    rw [List.cons_append, take_fraction_digits hd (padded_ne_nil _ _) hr',
      nanosOf_padded (by omega) (by omega) (by omega), hv]
  · rw [List.cons_append, take_fraction_digits hd (padded_ne_nil _ _) hr',
      nanosOf_padded (by omega) (by omega) (by omega), Nat.sub_self, Nat.pow_zero, Nat.mul_one]

/-! ## Marks and exact fields -/

theorem take_mark (c : Char) (reading : Reading) (rest : List Char) :
    (mark c).take reading (c :: rest) = .ok (reading, rest) := by
  simp [take, takeMark, bind, Except.bind, pure, Except.pure]

theorem take_separator {c : Char} (h : c = 'T' ∨ c = 't' ∨ c = ' ') (reading : Reading)
    (rest : List Char) : separator.take reading (c :: rest) = .ok (reading, rest) := by
  simp [take, h]

theorem take_exactYear {n : Nat} (hn : n < 10000) (reading : Reading) (rest : List Char) :
    exactYear.take reading (padded 4 n ++ rest) = .ok ({ reading with year := n }, rest) := by
  simp only [take, takeExactly_padded (by decide : 0 < 4) hn, bind, Except.bind,
    decimalValue_padded]
  rfl

theorem take_exact (part : Part) {n : Nat} (h : part.range.1 ≤ n ∧ n ≤ part.range.2)
    (reading : Reading) (rest : List Char) :
    (exact part).take reading (padded 2 n ++ rest) = .ok (part.put reading n, rest) := by
  have hn : n < 10 ^ 2 := by have := part.range_lt; omega
  simp only [take, takeExactly_padded (by decide : 0 < 2) hn, bind, Except.bind,
    decimalValue_padded, Part.note_of_range h]
  rfl

/-! ## Lenient fields -/

theorem take_number (part : Part) {n : Nat} (h : part.range.1 ≤ n ∧ n ≤ part.range.2)
    (reading : Reading) (rest : List Char) :
    (number part).take reading (padded 2 n ++ rest) = .ok (part.put reading n, rest) := by
  have hn : n < 10 ^ 2 := by have := part.range_lt; omega
  simp only [take, dropBlanks_padded, takeDigits_padded (by decide : 0 < 2) hn, bind, Except.bind,
    decimalValue_padded, Part.note_of_range h]
  rfl

theorem takeYear_padded {n : Nat} (hn : n < 10000) (rest : List Char) :
    takeYear (padded 4 n ++ rest) = .ok ((n : Int), rest) := by
  have hd := takeDigits_padded (by decide : 0 < 4) (show n < 10 ^ 4 by omega) rest
  have hr : -0x80000000 ≤ (n : Int) ∧ (n : Int) < 0x80000000 := by omega
  unfold takeYear
  split
  · next h => exact absurd (isDigit_head_padded 4 n rest '+' (by rw [h]; rfl)) (by decide)
  · next h => exact absurd (isDigit_head_padded 4 n rest '-' (by rw [h]; rfl)) (by decide)
  · -- the number is put in before the test of its range, which is slow to compare otherwise
    rw [hd, ok_bind]
    dsimp only
    rw [decimalValue_padded, pure_bind]
    dsimp only
    rw [if_pos hr]
    rfl

theorem take_year {n : Nat} (hn : n < 10000) (reading : Reading) (rest : List Char) :
    year.take reading (padded 4 n ++ rest) = .ok ({ reading with year := n }, rest) := by
  simp only [take, dropBlanks_padded, takeYear_padded hn, bind, Except.bind]
  rfl

/-! ## Offsets -/

theorem take_exactOffset_utc (reading : Reading) (rest : List Char) :
    exactOffset.take reading ('Z' :: rest) = .ok (reading, rest) := rfl

/-- An offset is read back if `between` passes over what stands between hours and minutes. -/
theorem takeOffset_append {between : List Char → Except Problem (List Char)} {gap : List Char}
    (isNegative : Bool) {hours minutes : Nat} (hh : hours < 10 ^ 2) (hm : minutes < 60)
    {rest : List Char}
    (hb : between (gap ++ (padded 2 minutes ++ rest)) = .ok (padded 2 minutes ++ rest))
    (reading : Reading) :
    takeOffset between reading ((if isNegative then '-' else '+') ::
        (padded 2 hours ++ (gap ++ (padded 2 minutes ++ rest)))) =
      .ok ({ reading with
        offset := if isNegative then -(60 * hours + minutes : Int) else 60 * hours + minutes },
        rest) := by
  have hs : ∀ text, takeSign ((if isNegative then '-' else '+') :: text) =
      .ok (isNegative, text) := by
    intro text
    cases isNegative <;> rfl
  have hm' : minutes < 10 ^ 2 := by omega
  simp only [takeOffset, hs, bind, Except.bind, takeExactly_padded (by decide : 0 < 2) hh, hb,
    takeExactly_padded (by decide : 0 < 2) hm', decimalValue_padded]
  rw [if_neg (by omega)]
  rfl

end Item

/-! ## Layouts -/

theorem Layout.take_nil (reading : Reading) (text : List Char) :
    Layout.take [] reading text = .ok (reading, text) := rfl

theorem Layout.take_cons {item : Item} {reading noted : Reading} {text rest : List Char}
    (h : item.take reading text = .ok (noted, rest)) (items : Layout) :
    Layout.take (item :: items) reading text = Layout.take items noted rest := by
  simp only [Layout.take, List.foldlM_cons, h]
  rfl

end SchemaScalar.Calendar
