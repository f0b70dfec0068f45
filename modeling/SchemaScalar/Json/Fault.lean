import SchemaScalar.Json.Printer
import SchemaScalar.Text.Quoted

/-!
# What can be wrong with a JSON document

A document is malformed where its text is no JSON, and it earns a complaint where its JSON is not of
the wanted shape. Readers of texts report either as a fault: the cause, and how much of the text was
read when it was noticed, from which the line and the column follow.
-/

namespace SchemaScalar

namespace Json

/-- Ways in which a text fails to be JSON. -/
inductive Malformed where
  | endInValue
  | endInArray
  | endInObject
  | endInString
  | valueExpected
  | identExpected
  | colonExpected
  | commaOrBracketExpected
  | commaOrBraceExpected
  | keyNotString
  | trailingComma
  | trailingCharacters
  | invalidNumber
  | numberOutOfRange
  | invalidEscape
  | loneSurrogate
  | unfinishedSurrogatePair
  | controlCharacter
  | tooDeep
  deriving DecidableEq

def Malformed.message : Malformed → String
  | endInValue => "EOF while parsing a value"
  | endInArray => "EOF while parsing a list"
  | endInObject => "EOF while parsing an object"
  | endInString => "EOF while parsing a string"
  | valueExpected => "expected value"
  | identExpected => "expected ident"
  | colonExpected => "expected `:`"
  | commaOrBracketExpected => "expected `,` or `]`"
  | commaOrBraceExpected => "expected `,` or `\x7d`"
  | keyNotString => "key must be a string"
  | trailingComma => "trailing comma"
  | trailingCharacters => "trailing characters"
  | invalidNumber => "invalid number"
  | numberOutOfRange => "number out of range"
  | invalidEscape => "invalid escape"
  | loneSurrogate => "lone leading surrogate in hex escape"
  | unfinishedSurrogatePair => "unexpected end of hex escape"
  | controlCharacter => "control character (\\u0000-\\u001F) found while parsing a string"
  | tooDeep => "recursion limit exceeded"

/-- What a complaint says was found: a scalar value with its content, or only the kind of a
container. -/
inductive Found where
  | null
  | bool (b : Bool)
  | integer (n : Int)
  | float (x : Binary64.Finite)
  | string (s : String)
  | sequence
  | map
  deriving DecidableEq

namespace Found

def ofNumber : Number → Found
  | .integer n _ _ => integer n
  | .float x => float x

def ofJson : Json → Found
  | .null => null
  | .bool b => bool b
  | .number n => ofNumber n
  | .string s => string s
  | .array _ => sequence
  | .object _ => map

/-- How a complaint names what was found. -/
def describe : Found → String
  | null => "null"
  | bool b => "boolean `" ++ (if b then "true" else "false") ++ "`"
  | integer n => "integer `" ++ String.ofList (Text.decimal n) ++ "`"
  | float x => "floating point `" ++ String.ofList (x.text .json) ++ "`"
  | string s => "string " ++ Text.cite s
  | sequence => "sequence"
  | map => "map"

end Found

/-- Ways in which well-formed JSON fails to be what a reader wants. -/
inductive Complaint where
  | invalidType (found : Found) (expected : String)
  | invalidValue (found : Found) (expected : String)
  | invalidLength (length : Nat) (expected : String)
  | missingField (field : String)
  | duplicateField (field : String)
  | unknownField (field : String) (known : List String)
  | unknownVariant (variant : String) (known : List String)
  deriving DecidableEq

/-- The choices that a complaint offers. -/
def oneOf : List String → String
  | [a, b] => "`" ++ a ++ "` or `" ++ b ++ "`"
  | choices => "one of " ++ ", ".intercalate (choices.map fun choice => "`" ++ choice ++ "`")

def Complaint.message : Complaint → String
  | invalidType found expected => "invalid type: " ++ found.describe ++ ", expected " ++ expected
  | invalidValue found expected => "invalid value: " ++ found.describe ++ ", expected " ++ expected
  | invalidLength length expected =>
    "invalid length " ++ toString length ++ ", expected " ++ expected
  | missingField field => "missing field `" ++ field ++ "`"
  | duplicateField field => "duplicate field `" ++ field ++ "`"
  | unknownField field known => "unknown field `" ++ field ++ "`, expected " ++ oneOf known
  | unknownVariant variant known => "unknown variant `" ++ variant ++ "`, expected " ++ oneOf known

/-- Why a text was refused. -/
inductive Cause where
  | malformed (what : Malformed)
  | complaint (what : Complaint)
  deriving DecidableEq

def Cause.message : Cause → String
  | malformed what => what.message
  | complaint what => what.message

/-- A cause together with where it was noticed: the characters left to read, and how many bytes at
their front count as read nevertheless, such as the byte that was looked at. -/
structure Fault where
  cause : Cause
  rest : List Char
  beyond : Nat
  deriving DecidableEq

/-- A place in a text: the line from 1, and the bytes read of that line. -/
structure Place where
  line : Nat
  column : Nat
  deriving DecidableEq

namespace Place

def start : Place := ⟨1, 0⟩

/-- The place after one more character. -/
def next (place : Place) (c : Char) : Place :=
  if c = '\n' then ⟨place.line + 1, 0⟩ else ⟨place.line, place.column + c.utf8Size⟩

/-- The place after some more bytes of a text, which may end inside a character; the end of the text
is not passed. -/
def advance (place : Place) (bytes : Nat) : List Char → Place
  | [] => place
  | c :: rest =>
    if c.utf8Size ≤ bytes then (place.next c).advance (bytes - c.utf8Size) rest
    else ⟨place.line, place.column + bytes⟩

def locate (place : Place) (message : String) : String :=
  message ++ " at line " ++ toString place.line ++ " column " ++ toString place.column

end Place

/-- Where in a text a fault was noticed. -/
def Fault.place (fault : Fault) (text : List Char) : Place :=
  let read := text.take (text.length - fault.rest.length)
  (read.foldl Place.next .start).advance fault.beyond fault.rest

def Fault.message (fault : Fault) (text : List Char) : String :=
  (fault.place text).locate fault.cause.message

end Json

end SchemaScalar
