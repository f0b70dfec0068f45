import SchemaScalar.Proofs.Calendar.DayNumber
import SchemaScalar.Proofs.Calendar.Item

/-!
# Written instants are read back

The text of an instant in the years 0 to 9999 follows the layout `Iso8601.interchange` and denotes
that instant, leap second and nanoseconds included (`Iso8601.parse_text`). The text of any other
instant is refused (`Iso8601.parse_text_outside`): its year has a sign, so no text denotes an
instant other than the one that it was written for.
-/

namespace SchemaScalar.Calendar

open Text (padded padded_ne_nil isDigit_of_mem_padded)

namespace Instant

/-- Whether the year in UTC can be written with four digits. -/
def HasPlainYear (instant : Instant) : Prop := 0 ≤ instant.year ∧ instant.year ≤ 9999

instance (instant : Instant) : Decidable instant.HasPlainYear :=
  inferInstanceAs (Decidable (_ ∧ _))

/-! ## The fields that the text of an instant states -/

/-- What the text of an instant says. -/
def reading (instant : Instant) : Reading where
  year := instant.year
  month := instant.date.month
  day := instant.date.day
  hour := instant.secondOfDay / 3600
  minute := instant.secondOfDay / 60 % 60
  second := if instant.isLeap then 60 else instant.secondOfDay % 60
  nanos := instant.fraction

/-- The second noted, a leap second taken as the one before it, is the last of the three parts of
the second of the day. -/
theorem reading_second (instant : Instant) :
    (if instant.reading.second = 60 then 59 else instant.reading.second) =
      instant.secondOfDay % 60 := by
  by_cases hl : instant.isLeap = true
  · simp [reading, hl, secondOfDay_of_isLeap hl]
  · have : instant.secondOfDay % 60 ≠ 60 := by omega
    simp [reading, hl, this]

theorem reading_nanos (instant : Instant) :
    (if instant.reading.second = 60 then 1000000000 + instant.reading.nanos
      else instant.reading.nanos) = instant.nanos := by
  rw [nanos_eq instant]
  by_cases hl : instant.isLeap = true
  · simp [reading, hl]
  · have : instant.secondOfDay % 60 ≠ 60 := by omega
    simp [reading, hl, this]

/-- What the text of an instant says means that instant. -/
theorem instant?_reading {instant : Instant} (h : instant.HasPlainYear) :
    instant.reading.instant? = some instant := by
  have hd : Date.ofFields? instant.reading.year instant.reading.month instant.reading.day =
      some instant.date := Date.ofFields?_eq_some instant.date
  have hy : firstYear ≤ instant.date.year ∧ instant.date.year ≤ lastYear := by
    have h0 : 0 ≤ instant.date.year := h.1
    have h9 : instant.date.year ≤ 9999 := h.2
    unfold firstYear lastYear
    omega
  have hs : daySecond instant.date.dayNumber +
      ((3600 * instant.reading.hour + 60 * instant.reading.minute +
        instant.secondOfDay % 60 : Nat) : Int) - 60 * instant.reading.offset = instant.seconds := by
    rw [seconds_eq instant]
    simp only [reading]
    omega
  have ho : instant.reading.offset.natAbs < 24 * 60 := Nat.zero_lt_succ _
  unfold Reading.instant?
  simp only [hd, hy, ho, reading_second, reading_nanos, bind, Option.bind, and_self, if_true, hs]
  exact ofCounts?_eq_some instant

end Instant

namespace Iso8601

/-! ## Years that four digits can hold -/

theorem yearText_plain {year : Int} (h0 : 0 ≤ year) (h9 : year ≤ 9999) :
    yearText year = padded 4 year.toNat := by
  have hn : year.natAbs = year.toNat := by omega
  rw [yearText, if_neg (by omega), if_neg (by omega), hn]

/-- The text of an instant takes the layout of interchange from its first character to its last. -/
theorem take_text {instant : Instant} (h : instant.HasPlainYear) :
    Layout.take interchange {} instant.text = .ok (instant.reading, []) := by
  obtain ⟨h0, h9⟩ := h
  have hm := instant.date.month_range
  have hd : 1 ≤ instant.date.day ∧ instant.date.day ≤ 31 :=
    ⟨instant.date.day_pos, instant.date.day_le_31⟩
  have hs := instant.secondOfDay_lt
  have hh : Part.hour.range.1 ≤ instant.secondOfDay / 3600 ∧
      instant.secondOfDay / 3600 ≤ Part.hour.range.2 := by simp only [Part.range]; omega
  have hmin : Part.minute.range.1 ≤ instant.secondOfDay / 60 % 60 ∧
      instant.secondOfDay / 60 % 60 ≤ Part.minute.range.2 := by simp only [Part.range]; omega
  have hsec : (if instant.isLeap then 60 else instant.secondOfDay % 60) ≤ 60 := by split <;> omega
  have hz : ∀ c ∈ ['Z'].head?, c.isDigit = false ∧ c ≠ '.' := by simp
  have hyear : yearText instant.date.year = padded 4 instant.year.toNat := yearText_plain h0 h9
  unfold Instant.text Date.text Instant.timeText interchange
  simp only [hyear, List.append_assoc, List.cons_append]
  rw [Layout.take_cons (Item.take_exactYear (by omega) _ _),
    Layout.take_cons (Item.take_mark _ _ _),
    Layout.take_cons (Item.take_exact .month hm _ _),
    Layout.take_cons (Item.take_mark _ _ _),
    Layout.take_cons (Item.take_exact .day hd _ _),
    Layout.take_cons (Item.take_separator (.inl rfl) _ _),
    Layout.take_cons (Item.take_exact .hour hh _ _),
    Layout.take_cons (Item.take_mark _ _ _),
    Layout.take_cons (Item.take_exact .minute hmin _ _),
    Layout.take_cons (Item.take_mark _ _ _),
    Layout.take_cons (Item.take_exact .second ⟨Nat.zero_le _, hsec⟩ _ _),
    Layout.take_cons (Item.take_fractionText instant.fraction_lt hz rfl),
    Layout.take_cons (Item.take_exactOffset_utc _ _), Layout.take_nil]
  have hn : ((instant.year.toNat : Nat) : Int) = instant.year := Int.toNat_of_nonneg h0
  simp only [Part.put, Instant.reading, hn]

theorem read_text {instant : Instant} (h : instant.HasPlainYear) :
    Layout.read interchange instant.text = .ok instant := by
  simp only [Layout.read, take_text h, bind, Except.bind, List.isEmpty_nil, if_true,
    Instant.instant?_reading h]
  rfl

/-- The layout of interchange is the first to be tried, so no other one gets to see the text. -/
theorem instant_text {instant : Instant} (h : instant.HasPlainYear) :
    Iso8601.instant instant.text = .ok instant := by
  have hf : timeLayouts.findSome? (fun layout => (layout.read instant.text).toOption) =
      some instant := by
    rw [timeLayouts, List.findSome?_cons, read_text h]
    rfl
  rw [Iso8601.instant, hf]

theorem hasFourDigitYear_append {year rest : List Char} (hl : year.length = 4)
    (hd : ∀ c ∈ year, c.isDigit = true) : hasFourDigitYear (year ++ '-' :: rest) = true := by
  have ht : (year ++ '-' :: rest).take 4 = year := by rw [← hl, List.take_left]
  have hr : (year ++ '-' :: rest).drop 4 = '-' :: rest := by rw [← hl, List.drop_left]
  simp only [hasFourDigitYear, ht, hr, List.head?_cons, beq_self_eq_true, Bool.and_true,
    List.all_eq_true]
  exact hd

/-- A text that does not start with a digit has no year of four digits. -/
theorem hasFourDigitYear_cons {c : Char} (hc : c.isDigit = false) (rest : List Char) :
    hasFourDigitYear (c :: rest) = false := by
  simp [hasFourDigitYear, hc]

/-! ## The two halves of the round trip -/

/-- A text is read if it denotes an instant and the year is plain as written and in UTC. -/
theorem parse_eq_ok_iff {text : List Char} {instant : Instant} :
    parse text = .ok instant ↔
      Iso8601.instant text = .ok instant ∧ hasFourDigitYear text = true ∧ instant.HasPlainYear := by
  unfold parse
  cases hi : Iso8601.instant text with
  | error problem => simp
  | ok found =>
    simp only [Except.ok.injEq]
    split
    · next hp =>
      constructor
      · intro h; cases h; exact ⟨rfl, hp⟩
      · rintro ⟨rfl, -⟩; rfl
    · next hp =>
      constructor
      · intro h; cases h
      · rintro ⟨rfl, h⟩; exact absurd h hp

/-- **Written instants are read back**: seconds, nanoseconds and leap seconds are kept. -/
theorem parse_text {instant : Instant} (h : instant.HasPlainYear) :
    parse instant.text = .ok instant := by
  refine parse_eq_ok_iff.2 ⟨instant_text h, ?_, h⟩
  have h9 := h.2
  have hyear : yearText instant.date.year = padded 4 instant.year.toNat := yearText_plain h.1 h9
  unfold Instant.text Date.text
  simp only [hyear, List.append_assoc, List.cons_append]
  exact hasFourDigitYear_append (Text.length_padded (by decide) (by omega))
    fun _ => isDigit_of_mem_padded

/-- **The texts of all other instants are refused**: their year starts with a sign. -/
theorem parse_text_outside {instant : Instant} (h : ¬ instant.HasPlainYear) :
    ∃ refusal, parse instant.text = .error refusal := by
  have hy : hasFourDigitYear instant.text = false := by
    have ho : instant.date.year < 0 ∨ 9999 < instant.date.year := by
      unfold Instant.HasPlainYear Instant.year at h
      omega
    unfold Instant.text Date.text yearText
    rcases ho with ho | ho
    · rw [if_pos ho]; exact hasFourDigitYear_cons rfl _
    · rw [if_neg (by omega), if_pos ho]; exact hasFourDigitYear_cons rfl _
  cases hp : parse instant.text with
  | error refusal => exact ⟨refusal, rfl⟩
  | ok found =>
    have h4 := (parse_eq_ok_iff.1 hp).2.1
    rw [hy] at h4
    cases h4

/-- An instant is determined by its text. -/
theorem text_inj {i j : Instant} (hi : i.HasPlainYear) (hj : j.HasPlainYear) :
    i.text = j.text ↔ i = j := by
  constructor
  · intro h
    have hij := parse_text hi
    rw [h, parse_text hj] at hij
    exact (Except.ok.inj hij).symm
  · rintro rfl
    rfl

end Iso8601

end SchemaScalar.Calendar
