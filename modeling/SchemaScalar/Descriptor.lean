import SchemaScalar.Leaf
import SchemaScalar.Outcome

/-!
# Descriptors

A descriptor is a tower over a leaf: layers that demand a value and layers that bound its measure,
in any order and number. Validation goes from the leaf outwards, and the first layer that objects
decides the message. The conversions are those of the leaf at every height.
-/

namespace SchemaScalar

/-- A tower of `NonNull` and `Refined` over a leaf. A refinement keeps the description that it was
made with, and a name of its own if it was given one. -/
inductive Descriptor (leaf : Leaf) where
  | bare (description : String)
  | nonNull (inner : Descriptor leaf)
  | refined (parent : Descriptor leaf) (bound : Bound leaf.Measure) (name : Option String)
      (description : String)

namespace Descriptor

variable {leaf : Leaf}

/-! ### Names and descriptions -/

def name : Descriptor leaf → String
  | bare _ => leaf.name
  | nonNull inner => inner.name
  | refined parent _ name _ => name.getD parent.name

def description : Descriptor leaf → String
  | bare description => description
  | nonNull inner => inner.description
  | refined _ _ _ description => description

/-- The leaf with its own description. -/
def plain (leaf : Leaf) : Descriptor leaf := .bare leaf.description

/-- `new` of a `Refined`: a tower with a bound on top, described after the name that the tower has
now. -/
def refine (parent : Descriptor leaf) (bound : Bound leaf.Measure) : Descriptor leaf :=
  .refined parent bound none (bound.describe parent.name leaf.noun?)

/-- Whether the tower has no bounds. -/
def isUnbounded : Descriptor leaf → Bool
  | bare _ => true
  | nonNull inner => inner.isUnbounded
  | refined _ _ _ _ => false

/-- `named`: names a bound on texts that is the only one in its tower; all other towers keep their
name. -/
def rename (name : String) : Descriptor leaf → Descriptor leaf
  | refined parent bound old description =>
    .refined parent bound (if leaf.isText && parent.isUnbounded then some name else old) description
  | other => other

/-- `with_description`: describes a leaf or a refinement anew; a layer that demands a value has no
description of its own. -/
def describe (description : String) : Descriptor leaf → Descriptor leaf
  | bare _ => .bare description
  | nonNull inner => .nonNull inner
  | refined parent bound name _ => .refined parent bound name description

/-! ### Conversions -/

/-- The internal value of an input. -/
def sanitize : Descriptor leaf → Json → Except ConversionError leaf.Value
  | bare _ => leaf.sanitize
  | nonNull inner => inner.sanitize
  | refined parent _ _ _ => parent.sanitize

/-- The wire value of an internal value. -/
def serialize : Descriptor leaf → leaf.Value → leaf.Wire
  | bare _ => leaf.serialize
  | nonNull inner => inner.serialize
  | refined parent _ _ _ => parent.serialize

/-- The internal value of a wire value. -/
def deserialize : Descriptor leaf → leaf.Wire → Except ConversionError leaf.Value
  | bare _ => leaf.deserialize
  | nonNull inner => inner.deserialize
  | refined parent _ _ _ => parent.deserialize

/-- The measure of an input, if it has one. -/
def measure : Descriptor leaf → Json → Option leaf.Measure
  | bare _ => leaf.measure
  | nonNull inner => inner.measure
  | refined parent _ _ _ => parent.measure

/-- `to_json`: an internal value as JSON, by way of the wire. -/
def toJson (descriptor : Descriptor leaf) (value : leaf.Value) : Json :=
  leaf.wireJson (descriptor.serialize value)

/-! ### Validation -/

/-- The message of a layer that demands a value. -/
def nullRefusal (key : String) : String := "Expected \"" ++ key ++ "\" to be a non-null value."

/-- The message about an accepted input without a measure. -/
def unmeasured (leaf : Leaf) (key : String) : String :=
  leaf.label ++ " of \"" ++ key ++ "\" could not be measured"

/-- Accepts an input as it is, or says why not; `key` names the input in messages. -/
def validate (key : String) (input : Json) : Descriptor leaf → Outcome Json
  | bare _ => if leaf.accepts input then .success input else .fail (leaf.refusal key)
  | nonNull inner =>
    match input with
    | .null => .fail (nullRefusal key)
    | _ => inner.validate key input
  | refined parent bound _ _ =>
    (parent.validate key input).andThen fun accepted =>
      match parent.measure accepted with
      | none => .fail (unmeasured leaf key)
      | some magnitude =>
        if bound.admits magnitude then .success accepted
        else .fail (bound.violation leaf.label key magnitude)

/-- `validate_and_sanitize`: the internal value of an input that is validated first. -/
def validateAndSanitize (descriptor : Descriptor leaf) (key : String) (input : Json) :
    Except ConversionError (Outcome leaf.Value) :=
  match descriptor.validate key input with
  | .success accepted => Outcome.success <$> descriptor.sanitize accepted
  | .failure messages => .ok (.failure messages)

/-- `coerce_input`: the JSON in which an accepted input is passed on, that of its internal value. -/
def coerce (descriptor : Descriptor leaf) (key : String) (input : Json) :
    Except ConversionError (Outcome Json) :=
  (Outcome.map descriptor.toJson) <$> descriptor.validateAndSanitize key input

end Descriptor

end SchemaScalar
