import SchemaScalar.Decimal.Binary64

/-!
# Shortest decimals

The fewest decimal digits that still single out a finite double among all doubles, and among
decimals of that many digits the one nearest to it. The unit `2 ^ (-1074)` is `5 ^ 1074` times
`10 ^ (-1074)`, so every double is a whole multiple of `10 ^ (-1074)` and the search runs on natural
numbers: the value and its candidates are counted in that decimal unit.
-/

namespace SchemaScalar

/-- The decimal `d.ddd × 10 ^ exponent` with the given digits, the first before the point. -/
structure Scientific where
  digits : List Char
  exponent : Int
  deriving DecidableEq

/-- Which of two equally near decimals is taken. -/
inductive Tie where
  | toEven
  | upward
  deriving DecidableEq

namespace Binary64.Finite

/-- The magnitude in units of `10 ^ (-1074)`. -/
def expansion (x : Finite) : Nat := x.units * Nat.pow 5 1074

/-- Four times the distance, in units, from a magnitude to the middle between it and the next larger
one. -/
def gapAbove (x : Finite) : Nat := 2 <<< x.shift

/-- Four times the distance, in units, from a magnitude to the middle between it and the next
smaller one; below a power of two the doubles lie twice as close. -/
def gapBelow (x : Finite) : Nat :=
  if x.significand = 1 <<< 52 ∧ 0 < x.shift then 1 <<< x.shift else 2 <<< x.shift

/-- Whether `x` is the double nearest to a magnitude given in units of `10 ^ (-1074)`. The middle
between two doubles belongs to the one with the even significand. -/
def readsBack (x : Finite) (magnitude : Nat) : Bool :=
  let low := (4 * x.units - x.gapBelow) * Nat.pow 5 1074
  let high := (4 * x.units + x.gapAbove) * Nat.pow 5 1074
  if x.significand % 2 = 0 then low ≤ 4 * magnitude && 4 * magnitude ≤ high
  else low < 4 * magnitude && 4 * magnitude < high

/-- The multiple of `step` nearest to the magnitude, if one of its two neighbours there reads back
as `x`; given as the count of steps. -/
def nearestMultiple? (x : Finite) (tie : Tie) (step : Nat) : Option Nat :=
  let below := x.expansion / step
  let excess := 2 * (x.expansion % step)
  let above := if excess = 0 then below else below + 1
  match x.readsBack (below * step), x.readsBack (above * step) with
  | true, true =>
    if excess < step then some below
    else if step < excess then some above
    else match tie with
      | .toEven => some (if below % 2 = 0 then below else above)
      | .upward => some above
  | true, false => some below
  | false, true => some above
  | false, false => none

/-- The shortest decimal that reads back as `x`, sign left out; seventeen digits always suffice. -/
def shortest (x : Finite) (tie : Tie) : Scientific :=
  if x.rank = 0 then ⟨['0'], 0⟩
  else
    let count := (Nat.toDigits 10 x.expansion).length
    let found? := (List.range 17).findSome? fun dropped =>
      (x.nearestMultiple? tie (Nat.pow 10 (count - 1 - dropped))).map fun n =>
        (n, count - 1 - dropped)
    let (n, place) := found?.getD (x.expansion, 0)
    let digits := Nat.toDigits 10 n
    let significant := (digits.reverse.dropWhile (· == '0')).reverse
    ⟨significant, ((digits.length + place : Nat) : Int) - 1 - 1074⟩

end Binary64.Finite

end SchemaScalar
