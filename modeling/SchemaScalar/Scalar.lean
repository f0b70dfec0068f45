import SchemaScalar.Descriptor

/-!
# Scalars

A scalar is a descriptor over some leaf. Scalars over different leaves stand side by side in a
registry, where only what does not depend on the leaf is asked of them.
-/

namespace SchemaScalar

/-- `DynScalar`: a descriptor together with its leaf. -/
structure Scalar where
  leaf : Leaf
  descriptor : Descriptor leaf

namespace Scalar

def name (scalar : Scalar) : String := scalar.descriptor.name

def description (scalar : Scalar) : String := scalar.descriptor.description

/-- `validate_input`: accepts an input as it is, or says why not. -/
def validate (scalar : Scalar) (key : String) (input : Json) : Outcome Json :=
  scalar.descriptor.validate key input

/-- `coerce_input`: the JSON in which an accepted input is passed on. -/
def coerce (scalar : Scalar) (key : String) (input : Json) :
    Except ConversionError (Outcome Json) :=
  scalar.descriptor.coerce key input

end Scalar

end SchemaScalar
