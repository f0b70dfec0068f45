import SchemaScalar.Calendar.Iso8601
import SchemaScalar.Json.Decoder

/-!
# Conversion errors

What can go wrong when a value is converted without, or in spite of, a validation. Unlike the
messages of a failed validation these are faults of the caller.
-/

namespace SchemaScalar

/-- `json_type_name`: the names that JSON gives to the kinds of its values. -/
def Json.kindName : Json → String
  | .null => "null"
  | .bool _ => "boolean"
  | .number _ => "number"
  | .string _ => "string"
  | .array _ => "array"
  | .object _ => "object"

/-- Why a value could not be converted. -/
inductive ConversionError where
  | notConvertible (scalar : String) (complaint : Json.Complaint)
  | invalidDate (input : String) (problem : Calendar.Problem)
  | dateOutOfRange (input : String)
  | typeMismatch (scalar expected actual : String)
  | integerOverflow (number : Json.Number)
  deriving DecidableEq

namespace ConversionError

def message : ConversionError → String
  | notConvertible scalar complaint =>
    "`" ++ scalar ++ "` could not convert accepted input: " ++ complaint.message
  | invalidDate input problem =>
    "`" ++ input ++ "` is not an ISO 8601 date string: " ++ problem.message
  | dateOutOfRange input => "`" ++ input ++ "` is outside the supported years 0000 to 9999"
  | typeMismatch scalar expected actual =>
    "`" ++ scalar ++ "` expected " ++ expected ++ ", found " ++ actual
  | integerOverflow number =>
    "number " ++ String.ofList number.text ++ " does not fit in a 64-bit signed integer"

/-- The error for a date that was refused. -/
def ofRefusal (input : String) : Calendar.Iso8601.Refusal → ConversionError
  | .unreadable problem => invalidDate input problem
  | .yearOutOfRange => dateOutOfRange input

end ConversionError

/-- `parse_iso8601`, whose errors cite the text. -/
def readDate (input : String) : Except ConversionError Calendar.Instant :=
  match Calendar.Iso8601.parse input.toList with
  | .ok instant => .ok instant
  | .error refusal => .error (.ofRefusal input refusal)

/-- `truncate_to_i64`: a number as a signed 64-bit integer, its fraction dropped. Integers of more
than 63 bits are held against the range as the doubles nearest to them. -/
def truncateNumber (number : Json.Number) : Except ConversionError Int64 :=
  match number.toInt64? with
  | some n => .ok n
  | none =>
    match number.toBinary64 with
    | .finite x =>
      if -0x8000000000000000 ≤ x.truncate ∧ x.truncate < 0x8000000000000000 then
        .ok (Int64.ofInt x.truncate)
      else .error (.integerOverflow number)
    | _ => .error (.integerOverflow number)

end SchemaScalar
