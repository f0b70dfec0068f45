import SchemaScalar.Proofs.Calendar.RoundTrip

/-!
# Stamps

A stamp is a date in the years 0 to 9999 as it is written down: alone, with a time of day to the
minute, or with one to the second, which may have a fraction of any length and an offset from UTC.
`Stamp.instant` says by the calendar which instant is meant, and the fields that a stamp states
denote that instant (`Stamp.instant?_reading`).
-/

namespace SchemaScalar.Calendar

open Text (padded decimalValue)

/-! ## What is written down -/

/-- What separates date and time. -/
inductive Gap where
  | letter
  | space
  deriving DecidableEq

structure Offset where
  isNegative : Bool
  hours : Nat
  minutes : Nat
  hasColon : Bool
  hours_lt : hours < 24
  minutes_lt : minutes < 60

/-- What is said about UTC. -/
inductive Zone where
  | unstated
  | utc
  | offset (offset : Offset)

/-- Seconds with the digits of their fraction, if it has any, and what follows them. -/
structure Seconds where
  second : Nat
  fraction : List Char
  zone : Zone
  second_le : second ≤ 60
  isDigit_of_mem : ∀ c ∈ fraction, c.isDigit = true

structure Time where
  gap : Gap
  hour : Nat
  minute : Nat
  seconds : Option Seconds
  hour_lt : hour < 24
  minute_lt : minute < 60

/-- A date with or without a time of day. -/
structure Stamp where
  date : Date
  time : Option Time
  year_nonneg : 0 ≤ date.year
  year_le : date.year ≤ 9999

def Gap.char : Gap → Char
  | letter => 'T'
  | space => ' '

def Offset.text (offset : Offset) : List Char :=
  (if offset.isNegative then '-' else '+') ::
    (padded 2 offset.hours ++ ((if offset.hasColon then [':'] else []) ++ padded 2 offset.minutes))

def Zone.text : Zone → List Char
  | unstated => []
  | utc => ['Z']
  | offset o => o.text

def Seconds.text (seconds : Seconds) : List Char :=
  ':' :: (padded 2 seconds.second ++
    ((if seconds.fraction = [] then [] else '.' :: seconds.fraction) ++ seconds.zone.text))

/-- A time of day without what separates it from the date. -/
def Time.clock (time : Time) : List Char :=
  padded 2 time.hour ++ ':' :: (padded 2 time.minute ++ time.seconds.elim [] Seconds.text)

def Stamp.text (stamp : Stamp) : List Char :=
  stamp.date.text ++ stamp.time.elim [] fun time => time.gap.char :: time.clock

/-! ## What is meant -/

/-- How many minutes local time is ahead of UTC. -/
def Offset.ahead (offset : Offset) : Int :=
  if offset.isNegative then -(60 * offset.hours + offset.minutes)
  else 60 * offset.hours + offset.minutes

def Zone.ahead : Zone → Int
  | unstated => 0
  | utc => 0
  | offset o => o.ahead

theorem Offset.hours_lt_pow (offset : Offset) : offset.hours < 10 ^ 2 := by
  have hh := offset.hours_lt
  omega

theorem Zone.natAbs_ahead_lt (zone : Zone) : zone.ahead.natAbs < 24 * 60 := by
  cases zone with
  | offset o =>
    have hh := o.hours_lt
    have hm := o.minutes_lt
    simp only [ahead, Offset.ahead]
    split <;> omega
  | _ => decide

namespace Stamp

variable (stamp : Stamp)

/-! What is not written down is zero. -/

def hour : Nat := stamp.time.elim 0 Time.hour

def minute : Nat := stamp.time.elim 0 Time.minute

def seconds? : Option Seconds := stamp.time.bind Time.seconds

def second : Nat := stamp.seconds?.elim 0 Seconds.second

def fraction : List Char := stamp.seconds?.elim [] Seconds.fraction

def ahead : Int := stamp.seconds?.elim 0 fun seconds => seconds.zone.ahead

/-- The seconds from the start of 1970 in UTC; a leap second counts as the one before it. -/
def seconds : Int :=
  86400 * stamp.date.dayNumber +
    (3600 * stamp.hour + 60 * stamp.minute + min stamp.second 59 : Nat) - 60 * stamp.ahead

/-- The nanoseconds since that second began. -/
def nanos : Nat :=
  (if stamp.second = 60 then 1000000000 else 0) +
    decimalValue stamp.fraction * 10 ^ 9 / 10 ^ stamp.fraction.length

theorem hour_lt : stamp.hour < 24 := by
  unfold hour
  cases stamp.time with
  | none => decide
  | some time => exact time.hour_lt

theorem minute_lt : stamp.minute < 60 := by
  unfold minute
  cases stamp.time with
  | none => decide
  | some time => exact time.minute_lt

theorem second_le : stamp.second ≤ 60 := by
  unfold second
  cases stamp.seconds? with
  | none => decide
  | some seconds => exact seconds.second_le

theorem isDigit_of_mem_fraction : ∀ c ∈ stamp.fraction, c.isDigit = true := by
  unfold fraction
  cases stamp.seconds? with
  | none => simp
  | some seconds => exact seconds.isDigit_of_mem

theorem natAbs_ahead_lt : stamp.ahead.natAbs < 24 * 60 := by
  unfold ahead
  cases stamp.seconds? with
  | none => decide
  | some seconds => exact seconds.zone.natAbs_ahead_lt

theorem nanos_eq :
    stamp.nanos = (if stamp.second = 60 then 1000000000 else 0) + nanosOf stamp.fraction := by
  rw [nanos, nanosOf_eq stamp.isDigit_of_mem_fraction]

theorem nanosOf_fraction_lt : nanosOf stamp.fraction < 1000000000 :=
  nanosOf_lt stamp.isDigit_of_mem_fraction

/-- Stamps are dated from 0000-01-01 to 9999-12-31. -/
theorem dayNumber_bounds : -719528 ≤ stamp.date.dayNumber ∧ stamp.date.dayNumber ≤ 2932896 := by
  have hd := stamp.date.dayNumber_bounds
  have h0 := stamp.year_nonneg
  have h9 := stamp.year_le
  unfold daysBeforeYear epochDay at hd
  dsimp only at hd
  omega

/-- An offset carries no stamp far from its date, so what is meant is an instant. -/
theorem seconds_bounds : firstSecond ≤ stamp.seconds ∧ stamp.seconds ≤ lastSecond := by
  have hd := stamp.dayNumber_bounds
  have hh := stamp.hour_lt
  have hm := stamp.minute_lt
  have ha := stamp.natAbs_ahead_lt
  have hfirst : firstSecond ≤ 86400 * (-719528) - 86400 := by decide
  have hlast : 86400 * 2932897 + 86400 ≤ lastSecond := by decide
  unfold seconds
  omega

/-- **The instant that a stamp means**: the day, the time of day, and the offset taken away. -/
def instant : Instant where
  seconds := stamp.seconds
  nanos := stamp.nanos
  first_le := stamp.seconds_bounds.1
  le_last := stamp.seconds_bounds.2
  nanos_lt := by
    have hf := stamp.nanosOf_fraction_lt
    rw [nanos_eq]
    split <;> omega
  leap := by
    have hf := stamp.nanosOf_fraction_lt
    rw [nanos_eq, seconds]
    split <;> omega

/-- The fields that a stamp states. -/
def reading : Reading where
  year := stamp.date.year
  month := stamp.date.month
  day := stamp.date.day
  hour := stamp.hour
  minute := stamp.minute
  second := stamp.second
  nanos := nanosOf stamp.fraction
  offset := stamp.ahead

/-- Without seconds a stamp states nothing after the minute. -/
theorem reading_eq (h : stamp.seconds? = none) :
    stamp.reading =
      { year := stamp.date.year, month := stamp.date.month, day := stamp.date.day,
        hour := stamp.hour, minute := stamp.minute } := by
  have hn : nanosOf [] = 0 := rfl
  simp only [reading, second, fraction, ahead, h, Option.elim_none, hn]

/-- What a stamp states means its instant. -/
theorem instant?_reading : stamp.reading.instant? = some stamp.instant := by
  have hd : Date.ofFields? stamp.reading.year stamp.reading.month stamp.reading.day =
      some stamp.date := Date.ofFields?_eq_some stamp.date
  have hy : firstYear ≤ stamp.date.year ∧ stamp.date.year ≤ lastYear := by
    have h0 := stamp.year_nonneg
    have h9 := stamp.year_le
    unfold firstYear lastYear
    omega
  have hsecond : (if stamp.reading.second = 60 then 59 else stamp.reading.second) =
      min stamp.second 59 := by
    have hs := stamp.second_le
    show (if stamp.second = 60 then 59 else stamp.second) = min stamp.second 59
    split <;> omega
  have hnanos : (if stamp.reading.second = 60 then 1000000000 + stamp.reading.nanos
      else stamp.reading.nanos) = stamp.nanos := by
    rw [nanos_eq]
    show (if stamp.second = 60 then 1000000000 + nanosOf stamp.fraction
      else nanosOf stamp.fraction) = _
    split <;> omega
  have ho : stamp.reading.offset.natAbs < 24 * 60 := stamp.natAbs_ahead_lt
  unfold Reading.instant?
  simp only [hd, hy, ho, hsecond, hnanos, bind, Option.bind, and_self, if_true]
  exact Instant.ofCounts?_eq_some stamp.instant

end Stamp

end SchemaScalar.Calendar
