/-!
# Double-precision numbers

The magnitudes that a double can hold are numbered in increasing order: zero has rank 0, the
smallest positive one rank 1, and so on. Every magnitude is a whole multiple of the smallest
positive one, `2 ^ (-1074)`, so that `units` tells the exact value as a natural number and no
rational number is needed to compare, truncate or print it.
-/

namespace SchemaScalar

/-- A finite double: a sign and the place of its magnitude among the finite magnitudes. The sign of
zero is kept. -/
structure Binary64.Finite where
  negative : Bool
  rank : Nat
  rank_lt : rank < 2047 <<< 52
  deriving DecidableEq

/-- A double: not a number, an infinity, or finite. -/
inductive Binary64 where
  | nan
  | infinite (negative : Bool)
  | finite (x : Binary64.Finite)
  deriving DecidableEq

namespace Binary64

namespace Finite

def zero (negative : Bool) : Finite := ⟨negative, 0, by decide⟩

/-- The whole number that is scaled by `2 ^ shift` to give `units`; below `2 ^ 53`. -/
def significand (x : Finite) : Nat :=
  if x.rank < 1 <<< 52 then x.rank else 1 <<< 52 + x.rank % (1 <<< 52)

/-- The binary scale of the magnitude; zero for all magnitudes of rank below `2 ^ 53`. -/
def shift (x : Finite) : Nat := x.rank >>> 52 - 1

/-- The magnitude in units of `2 ^ (-1074)`, the smallest positive double. -/
def units (x : Finite) : Nat := x.significand <<< x.shift

/-- The number in units of `2 ^ (-1074)`, with its sign; both zeros give 0. -/
def signedUnits (x : Finite) : Int := if x.negative then -(x.units : Int) else x.units

/-- How many units make one. -/
def unitsPerOne : Nat := 1 <<< 1074

/-- The whole number next to `x` on the side of zero. -/
def truncate (x : Finite) : Int := x.signedUnits.tdiv unitsPerOne

end Finite

/-- The order of doubles; nothing is below or above what is not a number. -/
def atMost : Binary64 → Binary64 → Bool
  | nan, _ => false
  | _, nan => false
  | infinite true, _ => true
  | _, infinite false => true
  | infinite false, _ => false
  | _, infinite true => false
  | finite x, finite y => x.signedUnits ≤ y.signedUnits

end Binary64

end SchemaScalar
