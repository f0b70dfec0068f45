import SchemaScalar.Bound
import SchemaScalar.Conversion

/-!
# Leaf types

The scalar types that are not made from others. Each accepts JSON values of one shape, told apart as
they were written: a whole number with a fraction or an exponent is no integer, an integer is no
float. A leaf converts between three forms of its values: JSON input, the internal value, and the
wire value that is sent. Leaves whose values can be measured, by their size or by their length, can
be bounded.
-/

namespace SchemaScalar

open Calendar (Instant)

/-- `BooleanType`, `StringType`, `IdType`, `IntType`, `FloatType` and `DateType`, and `Loose`, which
takes any JSON value that is not null. -/
inductive Leaf where
  | boolean
  | string
  | id
  | int
  | float
  | date
  | loose
  deriving DecidableEq

namespace Leaf

def name : Leaf → String
  | boolean => "Boolean"
  | string => "String"
  | id => "ID"
  | int => "Int"
  | float => "Float"
  | date => "Date"
  | loose => "Loose"

/-- The description of each leaf, unless it is given another. -/
def description : Leaf → String
  | boolean => "A value indicating whether a condition is true or false."
  | string => "A character sequence."
  | id => "A unique identifier."
  | int => "A signed integer."
  | float => "A signed double-precision floating-point value."
  | date => "An ISO-8601 Date."
  | loose => "Any JSON value."

abbrev Value : Leaf → Type
  | boolean => Bool
  | string => String
  | id => String
  | int => Int64
  | float => Binary64
  | date => Instant
  | loose => Json

abbrev Wire : Leaf → Type
  | boolean => Bool
  | string => String
  | id => String
  | int => Json.Number
  | float => Binary64
  | date => String
  | loose => Json

/-- What a value is measured in; values of an empty type of measures cannot be measured. -/
abbrev Measure : Leaf → Type
  | string => Nat
  | id => Nat
  | int => Int64
  | loose => Int64
  | boolean => Empty
  | float => Empty
  | date => Empty

instance : (leaf : Leaf) → Magnitude leaf.Measure
  | string => inferInstanceAs (Magnitude Nat)
  | id => inferInstanceAs (Magnitude Nat)
  | int => inferInstanceAs (Magnitude Int64)
  | loose => inferInstanceAs (Magnitude Int64)
  | boolean => inferInstanceAs (Magnitude Empty)
  | float => inferInstanceAs (Magnitude Empty)
  | date => inferInstanceAs (Magnitude Empty)

/-! ### Acceptance -/

def accepts : Leaf → Json → Bool
  | boolean, .bool _ => true
  | string, .string _ => true
  | id, .string _ => true
  | int, .number n => n.toInt64?.isSome
  | float, .number (.float _) => true
  | date, .string s => (readDate s).isOk
  | loose, .null => false
  | loose, _ => true
  | _, _ => false

def refusal (leaf : Leaf) (key : String) : String :=
  match leaf with
  | boolean => "Expected \"" ++ key ++ "\" to be a boolean."
  | string => "Expected \"" ++ key ++ "\" to be a string."
  | id => "Expected \"" ++ key ++ "\" to be a string."
  | int => "Expected \"" ++ key ++ "\" to be an integer."
  | float => "Expected \"" ++ key ++ "\" to be a float."
  | date => key ++ " must be an ISO 8601-formatted date string."
  | loose => "Expected \"" ++ key ++ "\" to be present."

/-! ### Conversions -/

/-- The internal value of an input, told from its shape whether or not the input is accepted; a
float is made of integers too. -/
def sanitize : (leaf : Leaf) → Json → Except ConversionError leaf.Value
  | boolean, input => (Json.Decoder.bool.ofJson input).mapError (.notConvertible boolean.name)
  | string, input => (Json.Decoder.string.ofJson input).mapError (.notConvertible string.name)
  | id, input => (Json.Decoder.string.ofJson input).mapError (.notConvertible id.name)
  | int, input => (Json.Decoder.int64.ofJson input).mapError (.notConvertible int.name)
  | float, .number n => .ok n.toBinary64
  | float, input => (input.mistyped "f64").mapError (.notConvertible float.name)
  | date, .string s => readDate s
  | date, input => .error (.typeMismatch date.name "string" input.kindName)
  | loose, input => .ok input

def serialize : (leaf : Leaf) → leaf.Value → leaf.Wire
  | boolean, b => b
  | string, s => s
  | id, s => s
  | int, n => .ofInt64 n
  | float, x => x
  | date, instant => String.ofList instant.text
  | loose, value => value

def deserialize : (leaf : Leaf) → leaf.Wire → Except ConversionError leaf.Value
  | boolean, b => .ok b
  | string, s => .ok s
  | id, s => .ok s
  | int, n => truncateNumber n
  | float, x => .ok x
  | date, s => readDate s
  | loose, value => .ok value

/-- A wire value as JSON; a double that is not finite has no number and becomes null. -/
def wireJson : (leaf : Leaf) → leaf.Wire → Json
  | boolean, b => .bool b
  | string, s => .string s
  | id, s => .string s
  | int, n => .number n
  | float, .finite x => .number (.float x)
  | float, _ => .null
  | date, s => .string s
  | loose, value => value

/-! ### Measures -/

def measure : (leaf : Leaf) → Json → Option leaf.Measure
  | string, .string s => some s.length
  | id, .string s => some s.length
  | int, .number n => n.toInt64?
  | loose, .number n => n.toInt64?
  | _, _ => none

/-- `MAGNITUDE_LABEL`: how messages call a measure. -/
def label : Leaf → String
  | string => "Length"
  | id => "Length"
  | _ => "Value"

/-- `MAGNITUDE_NOUN`: how descriptions call a measure that is not the value itself. -/
def noun? : Leaf → Option String
  | string => some "length"
  | id => some "length"
  | _ => none

/-- `TextScalar`: whether the values are texts; only bounds on texts can be named. -/
def isText : Leaf → Bool
  | string => true
  | id => true
  | _ => false

end Leaf

end SchemaScalar
