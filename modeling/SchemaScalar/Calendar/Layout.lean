import SchemaScalar.Calendar.Instant
import SchemaScalar.Text.Blank
import SchemaScalar.Text.Decimal

/-!
# Layouts of dates and times

A layout is a list of items, each of which takes its part off the front of a text and notes what it
says. There are exact items, which take a fixed count of digits, and lenient ones, which pass over
white space and are content with fewer. A number is held against its range as soon as it is read;
whether the date exists is settled once the whole text is read.
-/

namespace SchemaScalar.Calendar

open Text (decimalValue)

/-- Why a text does not follow a layout. -/
inductive Problem where
  | tooShort
  | invalid
  | tooLong
  | outOfRange
  deriving DecidableEq

def Problem.message : Problem → String
  | tooShort => "premature end of input"
  | invalid => "input contains invalid characters"
  | tooLong => "trailing input"
  | outOfRange => "input is out of range"

/-- What a text says: the fields of a local date and time, and how many minutes local time is ahead
of UTC. What it does not say stays at midnight in UTC. -/
structure Reading where
  year : Int := 1970
  month : Nat := 1
  day : Nat := 1
  hour : Nat := 0
  minute : Nat := 0
  second : Nat := 0
  nanos : Nat := 0
  offset : Int := 0
  deriving DecidableEq

/-- The fields of one or two digits. -/
inductive Part where
  | month
  | day
  | hour
  | minute
  | second
  deriving DecidableEq

/-- The least and the greatest number of a field; a sixtieth second is a leap second. -/
def Part.range : Part → Nat × Nat
  | month => (1, 12)
  | day => (1, 31)
  | hour => (0, 23)
  | minute => (0, 59)
  | second => (0, 60)

/-- Notes the number of a field, if it is in range. -/
def Part.note (part : Part) (reading : Reading) (n : Nat) : Except Problem Reading :=
  if n < part.range.1 ∨ part.range.2 < n then .error .outOfRange
  else match part with
    | month => .ok { reading with month := n }
    | day => .ok { reading with day := n }
    | hour => .ok { reading with hour := n }
    | minute => .ok { reading with minute := n }
    | second => .ok { reading with second := n }

/-- The parts of which layouts consist. -/
inductive Item where
  /-- This very character. -/
  | mark (c : Char)
  /-- White space, possibly none. -/
  | blanks
  /-- What separates date and time: `T` of either case, or one space. -/
  | separator
  /-- A year of exactly four digits. -/
  | exactYear
  /-- A field of exactly two digits. -/
  | exact (part : Part)
  /-- A year of up to four digits, or of any count after a sign; white space may come before it. -/
  | year
  /-- A field of one or two digits; white space may come before it. -/
  | number (part : Part)
  /-- A point and digits, or nothing; digits after the ninth are dropped. -/
  | fraction
  /-- `Z` of either case, or a sign, hours and minutes with a colon between them. -/
  | exactOffset
  /-- A sign, hours and minutes; white space may come before it, colons and white space between. -/
  | offset
  deriving DecidableEq

/-- The text after white space. -/
def dropBlanks (text : List Char) : List Char := text.dropWhile Text.isBlank

/-- Takes at least one digit and at most `limit`. -/
def takeDigits (limit : Nat) (text : List Char) : Except Problem (List Char × List Char) :=
  match text with
  | [] => .error .tooShort
  | c :: _ =>
    if c.isDigit then
      let digits := (text.take limit).takeWhile Char.isDigit
      .ok (digits, text.drop digits.length)
    else .error .invalid

def takeExactly (count : Nat) (text : List Char) : Except Problem (List Char × List Char) :=
  let digits := text.take count
  if digits.any (! ·.isDigit) then .error .invalid
  else if digits.length < count then .error .tooShort
  else .ok (digits, text.drop count)

/-- Takes a sign: whether it is a minus, for which there are two characters. -/
def takeSign (text : List Char) : Except Problem (Bool × List Char) :=
  match text with
  | [] => .error .tooShort
  | c :: rest =>
    if c = '+' then .ok (false, rest)
    else if c = '-' ∨ c = '\u2212' then .ok (true, rest)
    else .error .invalid

/-- The nanoseconds meant by the digits after a point. -/
def nanosOf (digits : List Char) : Nat :=
  let kept := digits.take 9
  decimalValue kept * Nat.pow 10 (9 - kept.length)

/-- Takes a sign and hours and minutes, where `between` passes over what stands between the two, and
notes the offset. -/
def takeOffset (between : List Char → Except Problem (List Char)) (reading : Reading)
    (text : List Char) : Except Problem (Reading × List Char) := do
  let (isNegative, text) ← takeSign text
  let (hours, text) ← takeExactly 2 text
  let text ← between text
  let (minutes, text) ← takeExactly 2 text
  if 59 < decimalValue minutes then .error .outOfRange
  else
    let ahead : Int := 60 * decimalValue hours + decimalValue minutes
    return ({ reading with offset := if isNegative then -ahead else ahead }, text)

def takeMark (mark : Char) (text : List Char) : Except Problem (List Char) :=
  match text with
  | [] => .error .tooShort
  | c :: rest => if c = mark then .ok rest else .error .invalid

/-- Takes a year with its sign. -/
def takeYear (text : List Char) : Except Problem (Int × List Char) := do
  let (year, text) ← match text with
    | '+' :: rest => do
      let (digits, rest) ← takeDigits rest.length rest
      pure ((decimalValue digits : Int), rest)
    | '-' :: rest => do
      let (digits, rest) ← takeDigits rest.length rest
      pure (-(decimalValue digits : Int), rest)
    | _ => do
      let (digits, rest) ← takeDigits 4 text
      pure ((decimalValue digits : Int), rest)
  if -0x80000000 ≤ year ∧ year < 0x80000000 then return (year, text) else .error .outOfRange

/-- Takes the part of an item off the front of a text and notes what it says. -/
def Item.take (item : Item) (reading : Reading) (text : List Char) :
    Except Problem (Reading × List Char) :=
  match item with
  | mark c => do return (reading, ← takeMark c text)
  | blanks => .ok (reading, dropBlanks text)
  | separator =>
    match text with
    | [] => .error .tooShort
    | c :: rest => if c = 'T' ∨ c = 't' ∨ c = ' ' then .ok (reading, rest) else .error .invalid
  | exactYear => do
    let (digits, rest) ← takeExactly 4 text
    return ({ reading with year := decimalValue digits }, rest)
  | exact part => do
    let (digits, rest) ← takeExactly 2 text
    return (← part.note reading (decimalValue digits), rest)
  | year => do
    let (n, rest) ← takeYear (dropBlanks text)
    return ({ reading with year := n }, rest)
  | number part => do
    let (digits, rest) ← takeDigits 2 (dropBlanks text)
    return (← part.note reading (decimalValue digits), rest)
  | fraction =>
    match text with
    | '.' :: rest => do
      let (digits, rest) ← takeDigits rest.length rest
      return ({ reading with nanos := nanosOf digits }, rest)
    | _ => .ok (reading, text)
  | exactOffset =>
    match text with
    | 'Z' :: rest => .ok (reading, rest)
    | 'z' :: rest => .ok (reading, rest)
    | _ => takeOffset (takeMark ':') reading text
  | offset =>
    takeOffset (fun text => .ok (text.dropWhile fun c => c == ':' || Text.isBlank c)) reading
      (dropBlanks text)

/-- The instant meant by a reading: the date must exist, the offset must be shorter than a day. -/
def Reading.instant? (reading : Reading) : Option Instant := do
  let date ← Date.ofFields? reading.year reading.month reading.day
  if firstYear ≤ date.year ∧ date.year ≤ lastYear ∧ reading.offset.natAbs < 24 * 60 then
    let isLeap := reading.second = 60
    let second := if isLeap then 59 else reading.second
    let ofDay := 3600 * reading.hour + 60 * reading.minute + second
    Instant.ofCounts? (daySecond date.dayNumber + ofDay - 60 * reading.offset)
      (if isLeap then 1000000000 + reading.nanos else reading.nanos)
  else none

/-- What follows what in a text. -/
abbrev Layout : Type := List Item

namespace Layout

/-- Takes the items of a layout one after another. -/
def take (layout : Layout) (reading : Reading) (text : List Char) :
    Except Problem (Reading × List Char) :=
  layout.foldlM (fun (reading, text) item => item.take reading text) (reading, text)

/-- Reads a whole text. -/
def read (layout : Layout) (text : List Char) : Except Problem Instant := do
  let (reading, rest) ← layout.take {} text
  if rest.isEmpty then
    match reading.instant? with
    | some instant => return instant
    | none => .error .outOfRange
  else .error .tooLong

end Layout

end SchemaScalar.Calendar
