import SchemaScalar.Decimal.Style
import SchemaScalar.Text.Decimal

/-!
# Bounds

A bound limits a magnitude from below, from above, or from both sides, ends included. Magnitudes are
whatever can be compared and written: lengths, 64-bit integers, doubles. Doubles need not be
comparable, so a bound is nowhere assumed to admit its own ends.
-/

namespace SchemaScalar

/-- What bounds can limit. -/
class Magnitude (α : Type) where
  /-- Whether the first is at most the second. -/
  atMost : α → α → Bool
  /-- How messages write it. -/
  text : α → String

instance : Magnitude Nat where
  atMost a b := a ≤ b
  text n := String.ofList (Text.decimal n)

instance : Magnitude Int64 where
  atMost a b := a ≤ b
  text n := String.ofList (Text.decimal n.toInt)

instance : Magnitude Binary64 where
  atMost := Binary64.atMost
  text x := x.text .plain

instance : Magnitude Empty where
  atMost _ _ := true
  text := Empty.elim

/-- `Min`, `Max` or `Range`: a limit on magnitudes. -/
inductive Bound (α : Type) where
  | min (least : α)
  | max (greatest : α)
  | range (least greatest : α)
  deriving DecidableEq

namespace Bound

variable {α : Type} [Magnitude α]

open Magnitude (atMost text)

def admits (bound : Bound α) (magnitude : α) : Bool :=
  match bound with
  | min least => atMost least magnitude
  | max greatest => atMost magnitude greatest
  | range least greatest => atMost least magnitude && atMost magnitude greatest

/-- `is_satisfiable` of a range: its ends are comparable and in order. Bounds to one side only are
not asked. -/
def rangeIsSatisfiable (least greatest : α) : Bool := atMost least greatest

/-- The message about a magnitude that does not keep to the bound. -/
def violation (bound : Bound α) (label key : String) (magnitude : α) : String :=
  let subject := label ++ " of \"" ++ key ++ "\" (" ++ text magnitude ++ ")"
  match bound with
  | min least => subject ++ " can not be lower than " ++ text least
  | max greatest => subject ++ " can not be greater than " ++ text greatest
  | range least greatest => subject ++ " must be between " ++ text least ++ " and " ++ text greatest

/-- The description of a type under the bound; `noun` says what is measured, if it is not the value
itself. -/
def describe (bound : Bound α) (typeName : String) (noun : Option String) : String :=
  match bound, noun with
  | min least, some noun => typeName ++ " with minimum " ++ noun ++ " of " ++ text least
  | min least, none => typeName ++ " with minimum of " ++ text least
  | max greatest, some noun => typeName ++ " with maximum " ++ noun ++ " of " ++ text greatest
  | max greatest, none => typeName ++ " with maximum of " ++ text greatest
  | range least greatest, some noun =>
    typeName ++ " with " ++ noun ++ " between " ++ text least ++ " and " ++ text greatest
  | range least greatest, none => typeName ++ " between " ++ text least ++ " and " ++ text greatest

end Bound

end SchemaScalar
