import SchemaScalar.Json.Reader

/-!
# Numerals

A numeral is read in two steps: its digits are taken apart, then the number that they denote is
chosen. Passing over a numeral that nobody wants needs the first step only, so numbers of any size
can be passed over.

What is no integer of 64 bits becomes a double, and not always the nearest one: as many digits as
fit 64 bits make a significand, which is rounded to a double and then multiplied or divided by a
power of ten, with a rounding each time.
-/

namespace SchemaScalar

namespace Json

/-- A numeral taken apart: `whole` has no superfluous zeros; the exponent keeps its sign and its
digits. -/
structure Numeral where
  negative : Bool
  whole : List Char
  fraction : Option (List Char)
  exponent : Option (Bool × List Char)
  deriving DecidableEq

namespace Numeral

/-- The longest run of digits at the front. -/
def digits : Reader (List Char) := fun text =>
  .ok (text.takeWhile Char.isDigit, text.dropWhile Char.isDigit)

/-- At least one digit; anything else is already read when it is refused. A text that ends here is
refused with `atEnd`. -/
def someDigits (atEnd : Malformed) : Reader (List Char) := fun text =>
  match text with
  | [] => Reader.malformed atEnd []
  | c :: rest =>
    if c.isDigit then digits (c :: rest) else Reader.malformedAhead .invalidNumber (c :: rest)

/-- The digits before the point; a zero stands alone. -/
def wholePart (atEnd : Malformed) : Reader (List Char) := fun text =>
  match text with
  | '0' :: c :: rest =>
    if c.isDigit then Reader.malformedAhead .invalidNumber (c :: rest) else .ok (['0'], c :: rest)
  | _ => someDigits atEnd text

def fractionPart (atEnd : Malformed) : Reader (Option (List Char)) := fun text =>
  match text with
  | '.' :: rest =>
    match rest with
    | [] => Reader.malformedAhead atEnd []
    | c :: _ =>
      if c.isDigit then (digits.andThen fun ds => .done (some ds)) rest
      else Reader.malformedAhead .invalidNumber rest
  | _ => .ok (none, text)

/-- The sign of an exponent: whether it is negative. -/
def exponentSign : Reader Bool := fun text =>
  match text with
  | '+' :: rest => .ok (false, rest)
  | '-' :: rest => .ok (true, rest)
  | _ => .ok (false, text)

def exponentPart (atEnd : Malformed) : Reader (Option (Bool × List Char)) := fun text =>
  match text with
  | c :: rest =>
    if c = 'e' ∨ c = 'E' then
      (do let negative ← exponentSign
          let ds ← someDigits atEnd
          return some (negative, ds) : Reader _) rest
    else .ok (none, text)
  | [] => .ok (none, [])

def minusSign : Reader Bool := fun text =>
  match text with
  | '-' :: rest => .ok (true, rest)
  | _ => .ok (false, text)

/-- Takes a numeral apart. A text that ends inside the numeral is refused with `atEnd`. -/
def scan (atEnd : Malformed) : Reader Numeral := do
  let negative ← minusSign
  let whole ← wholePart atEnd
  let fraction ← fractionPart atEnd
  let exponent ← exponentPart atEnd
  return { negative, whole, fraction, exponent }

/-- The exponent as a number, 0 where there is none. -/
def exponentValue (n : Numeral) : Int :=
  match n.exponent with
  | none => 0
  | some (true, ds) => -(Text.decimalValue ds : Int)
  | some (false, ds) => Text.decimalValue ds

/-- Takes digits into a significand as long as it stays within 64 bits, and counts the digits that
are left. -/
def gather (significand : Nat) : List Char → Nat × Nat
  | [] => (significand, 0)
  | c :: rest =>
    let longer := 10 * significand + (c.toNat - '0'.toNat)
    if longer < 0x10000000000000000 then gather longer rest else (significand, rest.length + 1)

/-- The significand and the power of ten to scale it by. Digits that do not fit are as good as
zeros: in the whole part they scale the number up, in the fraction they are ignored. -/
def parts (n : Numeral) : Nat × Int :=
  let fraction := n.fraction.getD []
  let (whole, dropped) := gather 0 n.whole
  let (significand, ignored) := gather whole fraction
  (significand, n.exponentValue + dropped - (fraction.length - ignored : Nat))

/-- Divides by `10 ^ 308` up to `count` times, no more once nothing is left. -/
def shrink : (count : Nat) → Binary64.Finite → Option Binary64.Finite
  | 0, x => some x
  | count + 1, x =>
    if x.rank = 0 then some x
    else do
      let power ← (Binary64.powerOfTen 308).finite?
      shrink count (← (x.quotient power).finite?)

/-- `f64_from_parts`: multiplies by a power of ten, or divides by one, in doubles; none beyond the
finite ones. Of whole numbers nothing but zero stays finite beyond `10 ^ 308`. -/
def scale? (x : Binary64.Finite) (exponent : Int) : Option Binary64.Finite :=
  if exponent < 0 then do
    -- steps of 308 places come first, so that one to 308 places are left for the last division
    let places := exponent.natAbs - 1
    let power ← (Binary64.powerOfTen (places % 308 + 1)).finite?
    let left ← shrink (places / 308) x
    (left.quotient power).finite?
  else if exponent ≤ 308 then do
    let power ← (Binary64.powerOfTen exponent.natAbs).finite?
    (x.product power).finite?
  else if x.rank = 0 then some x
  else none

/-- The numeral as a finite double. The significand is rounded before it is scaled and again after
it, so the result can be next to the double nearest to the numeral. -/
def toFinite? (n : Numeral) : Option Binary64.Finite := do
  let (significand, exponent) := n.parts
  let magnitude ← scale? (← (Binary64.ofInt significand).finite?) exponent
  return { magnitude with negative := n.negative }

/-- Sixteen digits can be too many: the last one is lost when the significand is rounded. -/
example :
    let numeral : Numeral := ⟨false, ['0'], some "9809888650348293".toList, none⟩
    numeral.toFinite?.map (·.text .json) = some "0.9809888650348292".toList := by
  decide +kernel

/-- The numeral as an integer: it has neither fraction nor exponent, is not a negative zero and fits
64 bits, unsigned or, below zero, signed. -/
def toInteger? (n : Numeral) : Option Number :=
  if n.fraction.isSome || n.exponent.isSome then none
  else
    let magnitude := Text.decimalValue n.whole
    if n.negative then
      if h : 0 < magnitude ∧ magnitude ≤ 0x8000000000000000 then
        some (.integer (-(magnitude : Int)) (by omega) (by omega))
      else none
    else if h : magnitude < 0x10000000000000000 then some (.integer magnitude (by omega) (by omega))
    else none

/-- The number denoted by a numeral, none if it is beyond the finite doubles. -/
def toNumber? (n : Numeral) : Option Number :=
  match n.toInteger? with
  | some integer => some integer
  | none => n.toFinite?.map .float

/-- The exponent digits after the one with which the exponent passes 2147483647; a number out of
range is noticed at that digit, before they are read. -/
def unreadDigits (n : Numeral) : List Char :=
  match n.exponent with
  | none => []
  | some (_, ds) =>
    let isTooLarge (count : Nat) : Bool := 2147483647 < Text.decimalValue (ds.take count)
    match (List.range (ds.length + 1)).find? isTooLarge with
    | some count => ds.drop count
    | none => []

end Numeral

def Reader.number : Reader Number := fun text =>
  match Numeral.scan .endInValue text with
  | .error fault => .error fault
  | .ok (numeral, rest) =>
    match numeral.toNumber? with
    | some value => .ok (value, rest)
    | none => Reader.malformed .numberOutOfRange (numeral.unreadDigits ++ rest)

def Reader.passNumeral : Reader Unit := do
  let _ ← Numeral.scan .invalidNumber
  return ()

end Json

end SchemaScalar
