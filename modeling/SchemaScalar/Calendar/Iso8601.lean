import SchemaScalar.Calendar.Layout

/-!
# ISO 8601 texts

`Instant.text` writes an instant in UTC. `Iso8601.parse` reads a date, or a date with a time of day,
with or without an offset from UTC; without one UTC is meant, and a bare date means midnight. The
year must be written with four digits, and in UTC it must lie between 0 and 9999, since the written
form has no room for others.
-/

namespace SchemaScalar.Calendar

open Text (padded)

/-- A year in four digits; other years get a sign and as many digits as they need, at least four. -/
def yearText (year : Int) : List Char :=
  if year < 0 then '-' :: padded 4 year.natAbs
  else if 9999 < year then '+' :: padded 4 year.natAbs
  else padded 4 year.natAbs

/-- A fraction of a second in three, six or nine digits, the fewest that lose nothing, and none for
zero. -/
def fractionText (nanos : Nat) : List Char :=
  if nanos = 0 then []
  else if nanos % 1000000 = 0 then '.' :: padded 3 (nanos / 1000000)
  else if nanos % 1000 = 0 then '.' :: padded 6 (nanos / 1000)
  else '.' :: padded 9 nanos

/-- A date as year, month and day. -/
def Date.text (date : Date) : List Char :=
  yearText date.year ++ '-' :: padded 2 date.month ++ '-' :: padded 2 date.day

/-- The time of day in UTC; a leap second is the sixtieth of its minute. -/
def Instant.timeText (instant : Instant) : List Char :=
  let s := instant.secondOfDay
  let second := if instant.isLeap then 60 else s % 60
  padded 2 (s / 3600) ++ ':' :: padded 2 (s / 60 % 60) ++ ':' :: padded 2 second ++
    fractionText instant.fraction

/-- `to_rfc3339_opts` with `AutoSi`: an instant in UTC. -/
def Instant.text (instant : Instant) : List Char :=
  instant.date.text ++ 'T' :: instant.timeText ++ ['Z']

namespace Iso8601

/-- `%Y-%m-%d`, leniently read. -/
def dateItems : Layout := [.year, .mark '-', .number .month, .mark '-', .number .day]

/-- `%H:%M`, leniently read. -/
def minuteItems : Layout := [.number .hour, .mark ':', .number .minute]

/-- `%H:%M:%S%.f`, leniently read. -/
def secondItems : Layout := minuteItems ++ [.mark ':', .number .second, .fraction]

/-- The layout of `parse_from_rfc3339`, exact and with an offset, in which instants are
interchanged. -/
def interchange : Layout :=
  [.exactYear, .mark '-', .exact .month, .mark '-', .exact .day, .separator,
   .exact .hour, .mark ':', .exact .minute, .mark ':', .exact .second, .fraction, .exactOffset]

/-- The layouts with a time of day, in the order in which they are tried: after that of interchange
the `OFFSET_LAYOUTS`, then the `NAIVE_LAYOUTS`. -/
def timeLayouts : List Layout :=
  [interchange,
   dateItems ++ .mark 'T' :: secondItems ++ [.offset],
   dateItems ++ .blanks :: secondItems ++ [.offset],
   dateItems ++ .mark 'T' :: secondItems,
   dateItems ++ .blanks :: secondItems,
   dateItems ++ .mark 'T' :: minuteItems,
   dateItems ++ .blanks :: minuteItems]

/-- `parse_instant`: the first layout that fits decides, and if none does, the problem is the one
with the layout of a bare date. -/
def instant (text : List Char) : Except Problem Instant :=
  match timeLayouts.findSome? fun layout => (layout.read text).toOption with
  | some instant => .ok instant
  | none => Layout.read dateItems text

/-- `has_four_digit_year`: whether a text starts with a year of exactly four digits and no sign. -/
def hasFourDigitYear (text : List Char) : Bool :=
  (text.take 4).all Char.isDigit && (text.drop 4).head? == some '-'

/-- Why a text is refused. -/
inductive Refusal where
  | unreadable (problem : Problem)
  | yearOutOfRange
  deriving DecidableEq

/-- Reads a text whose year is plain, as it is written and in UTC. -/
def parse (text : List Char) : Except Refusal Instant :=
  match instant text with
  | .error problem => .error (.unreadable problem)
  | .ok instant =>
    if hasFourDigitYear text ∧ 0 ≤ instant.year ∧ instant.year ≤ 9999 then .ok instant
    else .error .yearOutOfRange

end Iso8601

end SchemaScalar.Calendar
