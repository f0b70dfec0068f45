import SchemaScalar.Calendar.Instant

/-!
# Day numbers and dates

Day numbers count days: the first is that of 1970-01-01, and the date after a date has the next one
(`Date.dayNumber_next`). The date of a day number has that number again (`dayNumber_ofDayNumber`),
and an instant is its day and the second in it (`Instant.seconds_eq`). The fields of a date stay
within the ranges that its written form has room for, and its number within those of its year.
-/

namespace SchemaScalar.Calendar

/-! ## Fields of dates -/

theorem monthLength_le (year : Int) (month : Nat) : monthLength year month ≤ 31 := by
  match month with
  | 0 => exact Nat.zero_le _
  | m + 1 =>
    simp only [monthLength, monthLengths]
    -- February alone is left, whose length depends on the year
    rcases m with _ | _ | _ | _ | _ | _ | _ | _ | _ | _ | _ | _ | m <;> simp
    split <;> omega

theorem month_of_monthLength_pos {year : Int} {month : Nat} (h : 0 < monthLength year month) :
    1 ≤ month ∧ month ≤ 12 := by
  match month, h with
  | 0, h => simp [monthLength] at h
  | m + 1, h =>
    refine ⟨by omega, Nat.le_of_not_lt fun hm => ?_⟩
    have hl : (monthLengths year).length ≤ m := by simp [monthLengths]; omega
    simp [monthLength, List.getElem?_eq_none hl] at h

namespace Date

theorem month_range (date : Date) : 1 ≤ date.month ∧ date.month ≤ 12 :=
  month_of_monthLength_pos (Nat.lt_of_lt_of_le date.day_pos date.day_le)

theorem day_le_31 (date : Date) : date.day ≤ 31 :=
  Nat.le_trans date.day_le (monthLength_le date.year date.month)

/-- The fields of a date name that date. -/
theorem ofFields?_eq_some (date : Date) :
    ofFields? date.year date.month date.day = some date := by
  simp [ofFields?, date.day_pos, date.day_le]

end Date

/-! ## The number of a date -/

theorem daysIn_take_succ (lengths : List Nat) (i : Nat) :
    daysIn (lengths.take (i + 1)) = daysIn (lengths.take i) + lengths.getD i 0 := by
  induction lengths generalizing i with
  | nil => simp [daysIn]
  | cons length rest ih =>
    cases i with
    | zero => simp [daysIn]
    | succ i =>
      simp only [List.take_succ_cons, daysIn, List.getD_cons_succ, ih i]
      omega

theorem daysIn_take_le (lengths : List Nat) (i : Nat) :
    daysIn (lengths.take i) ≤ daysIn lengths := by
  induction lengths generalizing i with
  | nil => simp
  | cons length rest ih =>
    cases i with
    | zero => simp [daysIn]
    | succ i =>
      have h := ih i
      simp only [List.take_succ_cons, daysIn]
      omega

/-- The next month begins when this one is over. -/
theorem daysBeforeMonth_succ (year : Int) {month : Nat} (h : 1 ≤ month) :
    daysBeforeMonth year (month + 1) = daysBeforeMonth year month + monthLength year month := by
  obtain ⟨m, rfl⟩ : ∃ m, month = m + 1 := ⟨month - 1, by omega⟩
  exact daysIn_take_succ (monthLengths year) m

/-- The number of a date lies between those of the first days of its year and of the next. -/
theorem Date.dayNumber_bounds (date : Date) :
    daysBeforeYear date.year - epochDay ≤ date.dayNumber ∧
      date.dayNumber < daysBeforeYear (date.year + 1) - epochDay := by
  have hl := daysIn_take_le (monthLengths date.year) date.month
  have hm := daysBeforeMonth_succ date.year date.month_range.1
  have hy := daysBeforeYear_succ date.year
  have hd := date.day_le
  have hp := date.day_pos
  rw [daysIn_monthLengths] at hl
  rw [daysBeforeMonth, Nat.add_sub_cancel] at hm
  unfold dayNumber
  split at hy <;> simp_all <;> omega

theorem monthLength_pos (year : Int) {month : Nat} (h : 1 ≤ month) (h' : month ≤ 12) :
    1 ≤ monthLength year month := by
  obtain ⟨m, rfl⟩ : ∃ m, month = m + 1 := ⟨month - 1, by omega⟩
  simp only [monthLength, monthLengths]
  rcases m with _ | _ | _ | _ | _ | _ | _ | _ | _ | _ | _ | _ | m <;> simp
  · split <;> omega
  · omega

/-- The date after a date: the next day, or the first of the next month or year. -/
def Date.next (date : Date) : Date :=
  if h : date.day < monthLength date.year date.month then
    ⟨date.year, date.month, date.day + 1, by omega, h⟩
  else if h : date.month < 12 then
    ⟨date.year, date.month + 1, 1, Nat.le_refl 1, monthLength_pos date.year (by omega) (by omega)⟩
  else ⟨date.year + 1, 1, 1, Nat.le_refl 1, monthLength_pos _ (by omega) (by omega)⟩

/-- **Day numbers count days.** -/
theorem Date.dayNumber_next (date : Date) : date.next.dayNumber = date.dayNumber + 1 := by
  have hm := daysBeforeMonth_succ date.year date.month_range.1
  have hle := date.day_le
  unfold next
  split
  · simp only [dayNumber]
    omega
  split
  · simp only [dayNumber, hm]
    omega
  · -- after December nothing is left of the year
    have h12 : date.month = 12 := by have := date.month_range; omega
    have hyear : daysBeforeMonth date.year (12 + 1) = daysIn (monthLengths date.year) := rfl
    have hfirst : daysBeforeMonth (date.year + 1) 1 = 0 := rfl
    have hy := daysBeforeYear_succ date.year
    rw [h12, hyear, daysIn_monthLengths] at hm
    simp only [dayNumber, h12, hfirst] at hm hle ⊢
    split at hy <;> simp_all <;> omega

def Date.epoch : Date := ⟨1970, 1, 1, by decide, by decide⟩

theorem Date.dayNumber_epoch : epoch.dayNumber = 0 := by decide

/-! ## The number of the date of a day -/

/-- The month found and the day in it give the day back. -/
theorem daysIn_monthOfDay (lengths : List Nat) (first day : Nat) :
    ∃ i, (monthOfDay lengths first day).1 = first + i ∧
      daysIn (lengths.take i) + (monthOfDay lengths first day).2 = day := by
  induction lengths generalizing first day with
  | nil => exact ⟨0, rfl, by simp [daysIn, monthOfDay]⟩
  | cons length rest ih =>
    unfold monthOfDay
    split
    · exact ⟨0, rfl, by simp [daysIn]⟩
    · obtain ⟨i, hm, hs⟩ := ih (first + 1) (day - length)
      exact ⟨i + 1, by omega, by simp only [List.take_succ_cons, daysIn]; omega⟩

theorem daysBeforeMonth_monthAndDay (day : Int) :
    ((daysBeforeMonth (yearOfDay day) (monthAndDay day).1 + (monthAndDay day).2 : Nat) : Int) =
      day - daysBeforeYear (yearOfDay day) := by
  have hy := yearOfDay_bounds day
  obtain ⟨i, hm, hs⟩ := daysIn_monthOfDay (monthLengths (yearOfDay day)) 1
    (day - daysBeforeYear (yearOfDay day)).toNat
  have hi : (monthAndDay day).1 - 1 = i := by unfold monthAndDay; omega
  unfold daysBeforeMonth
  rw [hi]
  unfold monthAndDay
  omega

/-- **The date of a day has the number of that day.** -/
theorem Date.dayNumber_ofDayNumber (n : Int) : (Date.ofDayNumber n).dayNumber = n := by
  have h := daysBeforeMonth_monthAndDay (n + epochDay)
  simp only [Date.dayNumber, Date.ofDayNumber]
  omega

/-! ## The parts of an instant -/

namespace Instant

theorem secondOfDay_lt (instant : Instant) : instant.secondOfDay < 86400 := by
  unfold secondOfDay
  omega

/-- An instant is its day and the second in it. -/
theorem seconds_eq (instant : Instant) :
    instant.seconds = daySecond instant.date.dayNumber + instant.secondOfDay := by
  rw [date, Date.dayNumber_ofDayNumber]
  unfold daySecond secondOfDay
  omega

/-- A leap second is noted at the last second of a minute. -/
theorem secondOfDay_of_isLeap {instant : Instant} (h : instant.isLeap = true) :
    instant.secondOfDay % 60 = 59 := by
  have hl := instant.leap (of_decide_eq_true h)
  unfold secondOfDay
  omega

theorem fraction_lt (instant : Instant) : instant.fraction < 1000000000 :=
  Nat.mod_lt _ (by decide)

theorem nanos_eq (instant : Instant) :
    instant.nanos = (if instant.isLeap then 1000000000 else 0) + instant.fraction := by
  have hn := instant.nanos_lt
  simp only [fraction, isLeap, decide_eq_true_eq]
  split <;> omega

theorem ofCounts?_eq_some (instant : Instant) :
    ofCounts? instant.seconds instant.nanos = some instant := by
  simp [ofCounts?, instant.first_le, instant.le_last, instant.nanos_lt]
  exact instant.leap

end Instant

end SchemaScalar.Calendar
