import SchemaScalar.Scalar

/-!
# Built-in scalars

The scalars that every schema can use, under their keys, and the ways to bound texts and integers.
All of them demand a value.
-/

namespace SchemaScalar

namespace Descriptor

/-- A leaf that demands a value. -/
def required (leaf : Leaf) : Descriptor leaf := .nonNull (.plain leaf)

/-- `string_min`, `string_max` and `string_range`: strings whose count of characters keeps to a
bound. -/
def boundedString (bound : Bound Nat) : Descriptor .string := (required .string).refine bound

/-- `int_min`, `int_max` and `int_range`: integers that keep to a bound. -/
def boundedInt (bound : Bound Int64) : Descriptor .int := (required .int).refine bound

end Descriptor

namespace Scalar

open Descriptor (required boundedString boundedInt)

/-- `entries`: the built-in scalars under their keys, in the order in which they are registered. -/
def builtins : List (String × Scalar) :=
  [("Boolean", ⟨.boolean, required .boolean⟩),
   ("String", ⟨.string, required .string⟩),
   ("ID", ⟨.id, required .id⟩),
   ("NonEmptyString", ⟨.string, boundedString (.min 1)⟩),
   ("Int", ⟨.int, required .int⟩),
   ("PositiveInt", ⟨.int, boundedInt (.min 1)⟩),
   ("NonNegativeInt", ⟨.int, boundedInt (.min 0)⟩),
   ("NegativeInt", ⟨.int, boundedInt (.max (-1))⟩),
   ("NonPositiveInt", ⟨.int, boundedInt (.max 0)⟩),
   ("Float", ⟨.float, required .float⟩),
   ("Date", ⟨.date, required .date⟩)]

end Scalar

end SchemaScalar
