import SchemaScalar.Proofs.Calendar.Refusal
import SchemaScalar.Proofs.Descriptor.Dates
import SchemaScalar.Proofs.Leaf.Domain

/-!
# Texts that towers over dates take

What a tower over dates accepts is written in one of two manners (`accepted_dates_written`), not
always in the documented one (`accepted_dates_undocumented`). What it refuses it refuses as no date
if no layout reads it, and otherwise for its year (`refused_dates`), which may be in range all the
same (`refused_dates_in_range`).
-/

namespace SchemaScalar

open Calendar (IsFourDigits Manner YearAt)
open Calendar.Iso8601 (Denotes layouts)

theorem readDate_eq_error_iff (s : String) (refusal : Calendar.Iso8601.Refusal) :
    readDate s = .error (.ofRefusal s refusal) ↔
      Calendar.Iso8601.parse s.toList = .error refusal := by
  unfold readDate
  split
  · next h => simp [h]
  · next found h =>
    rw [h, Except.error.injEq, Except.error.injEq]
    cases found <;> cases refusal <;> simp [ConversionError.ofRefusal]

/-- How an accepted text is written: in the manner of interchange, which is documented, or in the
loose one. -/
def WrittenAsDate (text : List Char) : Prop :=
  ∃ date, (Manner.interchange.Writes date text ∧ Manner.documented.Writes date text) ∨
    Manner.loose.Writes date text

namespace Descriptor

variable (descriptor : Descriptor .date)

/-- **Every text that is accepted as a date is written in one of two manners**. -/
theorem accepted_dates_written {key text : String}
    (h : (descriptor.validate key (.string text)).isSuccess = true) :
    WrittenAsDate text.toList := by
  have hok : (readDate text).isOk = true := (isSuccess_validate_iff.1 h).1
  cases hread : readDate text with
  | error error =>
    rw [hread] at hok
    cases hok
  | ok instant =>
    obtain ⟨date, hw | hw⟩ := Calendar.Iso8601.writes_of_parse (readDate_eq_ok_iff.1 hread)
    · exact ⟨date, .inl ⟨hw, Manner.documented_of_interchange hw⟩⟩
    · exact ⟨date, .inr hw⟩

/-- A month of one digit, white space before the day and the minute, none between date and time. -/
theorem accepted_dates_written_unpadded :
    let tower : Descriptor .date := nonNull (plain .date)
    let text := "2024-1- 0112: 5"
    (tower.validate "at" (.string text)).isSuccess = true ∧ WrittenAsDate text.toList := by
  intro tower text
  have hv : (tower.validate "at" (.string text)).isSuccess = true := by decide +kernel
  exact ⟨hv, accepted_dates_written tower hv⟩

/-- Not every text that is accepted is written in the documented manner. -/
theorem accepted_dates_undocumented :
    ¬ ∀ (descriptor : Descriptor .date) (key text : String),
      (descriptor.validate key (.string text)).isSuccess = true →
        ∃ date, Manner.documented.Writes date text.toList := by
  intro h
  obtain ⟨date, hw⟩ := h (plain .date) "at" "2024-1-1" (by decide +kernel)
  exact absurd (Manner.length_of_documented hw) (by decide)

/-- **A text is refused for its year if it denotes an instant**, and the year is out of range, as
written or in UTC, or not written in four digits; it is refused as no date if no layout reads it.
There is no other reason, and it is the same on the wire and in an input. -/
theorem refused_dates (text : String) :
    let value := readDate text
    descriptor.sanitize (.string text) = value ∧ descriptor.deserialize text = value ∧
    (value = .error (.dateOutOfRange text) ↔
      ∃ reading instant blanks piece, Denotes text.toList reading instant ∧
        YearAt text.toList blanks piece reading.year ∧
        (¬ (0 ≤ reading.year ∧ reading.year ≤ 9999) ∨ ¬ instant.HasPlainYear ∨
          ¬ IsFourDigits blanks piece)) ∧
    ((∃ problem, value = .error (.invalidDate text problem)) ↔
      ∀ layout ∈ layouts, ∀ instant, layout.read text.toList ≠ .ok instant) ∧
    ((∃ instant, value = .ok instant) ∨ value = .error (.dateOutOfRange text) ∨
      ∃ problem, value = .error (.invalidDate text problem)) := by
  intro value
  refine ⟨?_, ?_, ?_, ?_, ?_⟩
  · rw [sanitize_eq]
    rfl
  · rw [deserialize_eq]
    rfl
  · rw [← Calendar.Iso8601.parse_eq_yearOutOfRange_iff]
    exact readDate_eq_error_iff text .yearOutOfRange
  · rw [← Calendar.Iso8601.parse_eq_unreadable_iff]
    exact exists_congr fun problem => readDate_eq_error_iff text (.unreadable problem)
  · cases hv : value with
    | ok instant => exact .inl ⟨instant, rfl⟩
    | error error =>
      rcases Leaf.readDate_error hv with ⟨problem, rfl⟩ | rfl
      · exact .inr (.inr ⟨problem, rfl⟩)
      · exact .inr (.inl rfl)

/-- A year in range may be refused as one out of range, for its sign alone. -/
theorem refused_dates_in_range :
    ¬ ∀ (descriptor : Descriptor .date) (text : String),
      descriptor.deserialize text = .error (.dateOutOfRange text) →
        ∃ reading instant, Denotes text.toList reading instant ∧
          (¬ (0 ≤ reading.year ∧ reading.year ≤ 9999) ∨ ¬ instant.HasPlainYear) := by
  intro h
  obtain ⟨reading, instant, hd, hout⟩ := h (plain .date) "+2024-01-01" rfl
  have hinstant : instant.HasPlainYear := by
    have hnewYear : Calendar.Iso8601.instant "+2024-01-01".toList =
        .ok ⟨1704067200, 0, by decide, by decide, by decide, by decide⟩ := rfl
    obtain rfl := Except.ok.inj (hnewYear.symm.trans hd.instant_eq)
    decide +kernel
  have hyear : reading.year = 2024 := by
    have hall : ∀ layout ∈ layouts, ((layout.take {} "+2024-01-01".toList).toOption.all
        fun taken => taken.1.year == 2024) = true := by decide +kernel
    obtain ⟨layout, hmem, ht, -⟩ := hd.read
    have hl := hall layout hmem
    rw [ht] at hl
    exact eq_of_beq hl
  rcases hout with hout | hout
  · exact hout (by rw [hyear]; decide)
  · exact hout hinstant

end Descriptor

end SchemaScalar
