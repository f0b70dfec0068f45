/-!
# Calendar dates

The Gregorian calendar, carried back to all years before it was in use; the year before 1 is 0. A
date has a day number, counted from 1970-01-01, and `ofDayNumber` finds the date with a given one.
-/

namespace SchemaScalar.Calendar

def isLeapYear (year : Int) : Bool := year % 4 == 0 && (year % 100 != 0 || year % 400 == 0)

def monthLengths (year : Int) : List Nat :=
  [31, if isLeapYear year then 29 else 28, 31, 30, 31, 30, 31, 31, 30, 31, 30, 31]

/-- The length of a month, counted from 1; no month has a length outside 1 to 12. -/
def monthLength (year : Int) (month : Nat) : Nat :=
  match month with
  | 0 => 0
  | m + 1 => (monthLengths year).getD m 0

/-- The days from the first of January of the year 1 to that of the given year. -/
def daysBeforeYear (year : Int) : Int :=
  let full := year - 1
  365 * full + full / 4 - full / 100 + full / 400

def daysIn : List Nat → Nat
  | [] => 0
  | length :: rest => length + daysIn rest

/-- The days of a year before the first of the given month. -/
def daysBeforeMonth (year : Int) (month : Nat) : Nat :=
  daysIn ((monthLengths year).take (month - 1))

/-- A date of the calendar. -/
structure Date where
  year : Int
  month : Nat
  day : Nat
  day_pos : 1 ≤ day
  day_le : day ≤ monthLength year month
  deriving DecidableEq

/-- The date with the given fields, if the month exists and is that long. -/
def Date.ofFields? (year : Int) (month day : Nat) : Option Date :=
  if h : 1 ≤ day ∧ day ≤ monthLength year month then some ⟨year, month, day, h.1, h.2⟩ else none

/-- The day number of 1970-01-01, counted from 0001-01-01. -/
def epochDay : Int := 719162

/-- The days from 1970-01-01 to a date. -/
def Date.dayNumber (date : Date) : Int :=
  daysBeforeYear date.year + daysBeforeMonth date.year date.month + (date.day - 1 : Int) - epochDay

/-- The year in which a day falls, counted from 0001-01-01. A year is on average 146097 / 400 days
long, and no year starts two days off that rhythm, so the estimate is wrong by at most one. -/
def yearOfDay (day : Int) : Int :=
  let estimate := day * 400 / 146097 + 1
  if day < daysBeforeYear estimate then estimate - 1
  else if day < daysBeforeYear (estimate + 1) then estimate
  else estimate + 1

/-- The month and the day in it, counted from the month `first` with the length at the head of the
list; the day is counted from 0. -/
def monthOfDay : List Nat → (first : Nat) → (day : Nat) → Nat × Nat
  | [], first, day => (first, day)
  | length :: rest, first, day =>
    if day < length then (first, day) else monthOfDay rest (first + 1) (day - length)

/-! ### The date of a day -/

theorem daysBeforeYear_succ (year : Int) :
    daysBeforeYear (year + 1) = daysBeforeYear year + (if isLeapYear year then 366 else 365) := by
  have leap : isLeapYear year = true ↔ (year % 4 = 0 ∧ (year % 100 ≠ 0 ∨ year % 400 = 0)) := by
    simp [isLeapYear]
  unfold daysBeforeYear
  split
  · next h => have := leap.1 h; dsimp only; omega
  · next h => have := mt leap.2 h; dsimp only; omega

/-- A day falls into the year that `yearOfDay` names. -/
theorem yearOfDay_bounds (day : Int) :
    daysBeforeYear (yearOfDay day) ≤ day ∧ day < daysBeforeYear (yearOfDay day + 1) := by
  have near : daysBeforeYear (day * 400 / 146097) ≤ day ∧
      day < daysBeforeYear (day * 400 / 146097 + 3) := by
    unfold daysBeforeYear
    dsimp only
    omega
  have e : ∀ n : Int, n + 1 + 1 + 1 = n + 3 := by omega
  have e' : ∀ n : Int, n + 1 - 1 = n := by omega
  have e'' : ∀ n : Int, n + 1 - 1 + 1 = n + 1 := by omega
  unfold yearOfDay
  dsimp only
  split
  · rw [e'', e']; exact ⟨near.1, by assumption⟩
  · split
    · exact ⟨by omega, by assumption⟩
    · rw [e]; exact ⟨by omega, near.2⟩

theorem daysIn_monthLengths (year : Int) :
    daysIn (monthLengths year) = if isLeapYear year then 366 else 365 := by
  unfold monthLengths
  split <;> rfl

/-- The month found is one of the list, and the day lies in it. -/
theorem monthOfDay_lt (lengths : List Nat) (first day : Nat) (h : day < daysIn lengths) :
    ∃ i, (monthOfDay lengths first day).1 = first + i ∧
      (monthOfDay lengths first day).2 < lengths.getD i 0 := by
  induction lengths generalizing first day with
  | nil => simp [daysIn] at h
  | cons length rest ih =>
    unfold monthOfDay
    split
    · exact ⟨0, by simp, by simpa using by assumption⟩
    · obtain ⟨i, hi, lt⟩ := ih (first + 1) (day - length) (by simp only [daysIn] at h; omega)
      exact ⟨i + 1, by omega, by simpa using lt⟩

/-- The month and the day of a day counted from 0001-01-01, the day counted from 0. -/
def monthAndDay (day : Int) : Nat × Nat :=
  monthOfDay (monthLengths (yearOfDay day)) 1 (day - daysBeforeYear (yearOfDay day)).toNat

theorem monthAndDay_lt (day : Int) :
    (monthAndDay day).2 < monthLength (yearOfDay day) (monthAndDay day).1 := by
  have bounds := yearOfDay_bounds day
  have next := daysBeforeYear_succ (yearOfDay day)
  have short :
      (day - daysBeforeYear (yearOfDay day)).toNat < daysIn (monthLengths (yearOfDay day)) := by
    rw [daysIn_monthLengths]
    split at next <;> simp_all <;> omega
  obtain ⟨i, month_eq, lt⟩ := monthOfDay_lt _ 1 _ short
  have month_eq : (monthAndDay day).1 = i + 1 := by unfold monthAndDay; omega
  rw [month_eq]
  exact lt

/-- The date of a day counted from 1970-01-01. -/
def Date.ofDayNumber (n : Int) : Date :=
  ⟨yearOfDay (n + epochDay), (monthAndDay (n + epochDay)).1, (monthAndDay (n + epochDay)).2 + 1,
    by omega, monthAndDay_lt (n + epochDay)⟩

end SchemaScalar.Calendar
