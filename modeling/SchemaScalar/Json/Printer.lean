import SchemaScalar.Json.Basic
import SchemaScalar.Decimal.Style
import SchemaScalar.Text.Decimal

/-!
# Writing JSON

Values are written without blanks, the members of an object in the order in which it holds them. In
strings only quotes, backslashes and the characters below the space are escaped.
-/

namespace SchemaScalar

namespace Json

def Number.text : Number → List Char
  | .integer n _ _ => Text.decimal n
  | .float x => x.text .json

/-- The four hexadecimal digits of a code below 65536, small letters. -/
def hexDigits (code : Nat) : List Char :=
  [code / 4096, code / 256, code / 16, code].map fun n => Nat.digitChar (n % 16)

/-- A character as it stands inside a quoted string. -/
def escapeChar (c : Char) : List Char :=
  if c = '"' then ['\\', '"']
  else if c = '\\' then ['\\', '\\']
  else if c = '\x08' then ['\\', 'b']
  else if c = '\t' then ['\\', 't']
  else if c = '\n' then ['\\', 'n']
  else if c = '\x0c' then ['\\', 'f']
  else if c = '\r' then ['\\', 'r']
  else if c < ' ' then '\\' :: 'u' :: hexDigits c.toNat
  else [c]

def quote (s : String) : List Char := '"' :: s.toList.flatMap escapeChar ++ ['"']

def commaSeparated : List (List Char) → List Char
  | [] => []
  | [text] => text
  | text :: rest => text ++ ',' :: commaSeparated rest

mutual

/-- The text of a value, as characters. -/
def write : Json → List Char
  | .null => ['n', 'u', 'l', 'l']
  | .bool true => ['t', 'r', 'u', 'e']
  | .bool false => ['f', 'a', 'l', 's', 'e']
  | .number n => n.text
  | .string s => quote s
  | .array elements => '[' :: commaSeparated (writeElements elements) ++ [']']
  | .object members => '{' :: commaSeparated (writeMembers members) ++ ['}']

def writeElements : List Json → List (List Char)
  | [] => []
  | element :: rest => write element :: writeElements rest

/-- The texts of the members of an object, each key before its value. -/
def writeMembers : List (String × Json) → List (List Char)
  | [] => []
  | (key, value) :: rest => (quote key ++ ':' :: write value) :: writeMembers rest

end

def print (value : Json) : String := String.ofList value.write

end Json

end SchemaScalar
