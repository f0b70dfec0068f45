import SchemaScalar.Calendar.Date

/-!
# Instants

A point in time, counted in seconds and nanoseconds from the start of 1970 in UTC. A leap second has
no count of its own: it is the second before it with a thousand million nanoseconds more, and it can
only follow the last second of a minute.
-/

namespace SchemaScalar.Calendar

/-- The first of the years that an instant can lie in; `lastYear` is the last. -/
def firstYear : Int := -262143

def lastYear : Int := 262142

def daySecond (dayNumber : Int) : Int := 86400 * dayNumber

def firstSecond : Int := daySecond (daysBeforeYear firstYear - epochDay)

def lastSecond : Int := daySecond (daysBeforeYear (lastYear + 1) - epochDay) - 1

/-- A point in time, leap seconds included. -/
structure Instant where
  seconds : Int
  nanos : Nat
  first_le : firstSecond ≤ seconds
  le_last : seconds ≤ lastSecond
  nanos_lt : nanos < 2000000000
  leap : 1000000000 ≤ nanos → seconds % 60 = 59
  deriving DecidableEq

namespace Instant

/-- The instant with the given counts, if there is one. -/
def ofCounts? (seconds : Int) (nanos : Nat) : Option Instant :=
  if h : firstSecond ≤ seconds ∧ seconds ≤ lastSecond ∧ nanos < 2000000000 ∧
      (1000000000 ≤ nanos → seconds % 60 = 59) then
    some ⟨seconds, nanos, h.1, h.2.1, h.2.2.1, h.2.2.2⟩
  else none

/-- The date in UTC. -/
def date (instant : Instant) : Date := .ofDayNumber (instant.seconds / 86400)

/-- The year in UTC. -/
def year (instant : Instant) : Int := instant.date.year

/-- The second of the day in UTC, a leap second counted as the one before it. -/
def secondOfDay (instant : Instant) : Nat := (instant.seconds % 86400).toNat

def isLeap (instant : Instant) : Bool := 1000000000 ≤ instant.nanos

/-- The nanoseconds since the second, or the leap second, began. -/
def fraction (instant : Instant) : Nat := instant.nanos % 1000000000

end Instant

end SchemaScalar.Calendar
