import SchemaScalar.Proofs.Calendar.ReadStamp
import SchemaScalar.Proofs.Descriptor.Coercion

/-!
# Dates as they are written

What a tower over dates makes of a stamp. All that it does to a date, it does by the instant that
the stamp means: in years that instants are written in, the stamp is accepted and becomes that
instant, and is passed on as its text in UTC (`coerce_stamp`); in other years it is refused
(`stamp_read`).
-/

namespace SchemaScalar

open Calendar (Date Instant Stamp)

/-- What a stamp is read as. -/
def stampValue (stamp : Stamp) : Except ConversionError Instant :=
  if stamp.instant.HasPlainYear then .ok stamp.instant
  else .error (.dateOutOfRange (String.ofList stamp.text))

theorem readDate_stamp (stamp : Stamp) :
    readDate (String.ofList stamp.text) = stampValue stamp := by
  unfold readDate stampValue
  rw [String.toList_ofList, Calendar.Iso8601.parse_stamp]
  by_cases h : stamp.instant.HasPlainYear
  · simp only [if_pos h]
  · simp only [if_neg h]
    rfl

theorem isOk_stampValue (stamp : Stamp) :
    (stampValue stamp).isOk = decide stamp.instant.HasPlainYear := by
  unfold stampValue
  by_cases h : stamp.instant.HasPlainYear
  · rw [if_pos h, decide_eq_true h]
    rfl
  · rw [if_neg h, decide_eq_false h]
    rfl

namespace Descriptor

/-- A tower over dates has no bounds, so its leaf decides about texts. -/
theorem validate_date (descriptor : Descriptor .date) (key text : String) :
    descriptor.validate key (.string text) =
      if (readDate text).isOk then .success (.string text) else .fail (Leaf.date.refusal key) := by
  have hb : descriptor.bounds = [] :=
    List.eq_nil_iff_forall_not_mem.2 fun bound _ => noBound bound
  rw [validate_eq descriptor key (by simp), hb]
  rfl

/-- **A stamp is read as the instant that it means**, by every tower over dates and under any key,
unless the instant lies in a year that instants are not written in. The instant is so many seconds
and nanoseconds after the start of 1970: those of the days until the date, counted one by one, and
of the time of day, less the offset. -/
theorem stamp_read (stamp : Stamp) (descriptor : Descriptor .date) (key : String) :
    (stamp.instant.seconds = 86400 * stamp.date.dayNumber +
        (3600 * stamp.hour + 60 * stamp.minute + min stamp.second 59 : Nat) - 60 * stamp.ahead ∧
      stamp.instant.nanos = (if stamp.second = 60 then 1000000000 else 0) +
        Text.decimalValue stamp.fraction * 10 ^ 9 / 10 ^ stamp.fraction.length ∧
      Date.epoch.dayNumber = 0 ∧ ∀ date : Date, date.next.dayNumber = date.dayNumber + 1) ∧
    let text := String.ofList stamp.text
    let value : Except ConversionError Instant :=
      if 0 ≤ stamp.instant.year ∧ stamp.instant.year ≤ 9999 then .ok stamp.instant
      else .error (.dateOutOfRange text)
    readDate text = value ∧
    descriptor.sanitize (.string text) = value ∧
    descriptor.deserialize text = value ∧
    descriptor.validate key (.string text) =
      if 0 ≤ stamp.instant.year ∧ stamp.instant.year ≤ 9999 then .success (.string text)
      else .fail (Leaf.date.refusal key) := by
  refine ⟨⟨rfl, rfl, Date.dayNumber_epoch, Date.dayNumber_next⟩, ?_⟩
  intro text value
  have hread : readDate text = value := readDate_stamp stamp
  refine ⟨hread, ?_, ?_, ?_⟩
  · rw [sanitize_eq]
    exact hread
  · rw [deserialize_eq]
    exact hread
  · rw [validate_date, readDate_stamp, isOk_stampValue]
    simp only [decide_eq_true_eq]
    rfl

/-- A stamp is passed on as the text of its instant in UTC. -/
theorem coerce_stamp {stamp : Stamp} (h : stamp.instant.HasPlainYear)
    (descriptor : Descriptor .date) (key : String) :
    descriptor.coerce key (.string (String.ofList stamp.text)) =
      .ok (.success (.string (String.ofList stamp.instant.text))) := by
  have hv : (readDate (String.ofList stamp.text)) = .ok stamp.instant := by
    rw [readDate_stamp, stampValue, if_pos h]
  have hs : descriptor.validateAndSanitize key (.string (String.ofList stamp.text)) =
      .ok (.success stamp.instant) := by
    rw [validateAndSanitize, validate_date, hv, sanitize_eq]
    simp only [Except.isOk, Except.toBool, if_true, Leaf.sanitize, hv]
    rfl
  exact coerce_of_value hs

end Descriptor

end SchemaScalar
