import SchemaScalar.Decimal.Binary64

/-!
# The nearest double

A fraction is taken to the double nearest to it, and so are whole numbers and the products and
quotients of doubles; a value half way between two doubles goes to the one with the even
significand, and what lies beyond the largest finite double becomes an infinity.
-/

namespace SchemaScalar

namespace Binary64

/-- The whole number nearest to `num / den`, a half going to the even neighbour. -/
def divNearest (num den : Nat) : Nat :=
  let quotient := num / den
  let excess := 2 * (num % den)
  if excess < den then quotient
  else if den < excess then quotient + 1
  else quotient + quotient % 2

/-- The rank of the magnitude nearest to `num / den`, as if ranks went on without an end. Ranks of
one binary scale are consecutive, and rounding up to the next scale is rounding up to its first
rank. -/
def nearestRank (num den : Nat) : Nat :=
  let units := num * Finite.unitsPerOne
  let shift := (units / den).log2 - 52
  shift <<< 52 + divNearest units (den <<< shift)

/-- The double nearest to `num / den`, with the given sign. -/
def ofRatio (negative : Bool) (num den : Nat) : Binary64 :=
  if h : nearestRank num den < 2047 <<< 52 then
    .finite ⟨negative, nearestRank num den, h⟩
  else .infinite negative

def ofInt (n : Int) : Binary64 := ofRatio (n < 0) n.natAbs 1

/-- The double nearest to a power of ten; finite up to `10 ^ 308`. -/
def powerOfTen (exponent : Nat) : Binary64 := ofRatio false (Nat.pow 10 exponent) 1

def finite? : Binary64 → Option Finite
  | finite x => some x
  | _ => none

namespace Finite

/-- The double nearest to the product. -/
def product (x y : Finite) : Binary64 :=
  ofRatio (x.negative != y.negative) (x.units * y.units) (unitsPerOne * unitsPerOne)

/-- The double nearest to the quotient by a number other than zero. -/
def quotient (x y : Finite) : Binary64 := ofRatio (x.negative != y.negative) x.units y.units

end Finite

end Binary64

end SchemaScalar
