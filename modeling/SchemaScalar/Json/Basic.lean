import SchemaScalar.Decimal.Rounding

/-!
# JSON values

Numbers are told apart by how they were written: a whole number without fraction and exponent that
fits 64 bits, signed or unsigned, is an integer, every other number a finite double. So `3`, `3.0`
and `-0` are three different values.

An object is the list of its members. Values that were read have their members sorted by key, each
key once; a document about to be written may list its members in any order.
-/

namespace SchemaScalar

namespace Json

/-- A number as JSON values hold it. -/
inductive Number where
  | integer (n : Int) (lower : -0x8000000000000000 ≤ n) (upper : n < 0x10000000000000000)
  | float (x : Binary64.Finite)
  deriving DecidableEq

namespace Number

def ofInt64 (n : Int64) : Number :=
  .integer n.toInt (by have := Int64.le_toInt n; omega) (by have := Int64.toInt_lt n; omega)

/-- `as_i64`: the signed 64-bit integer that is the number, if it is an integer in that range. -/
def toInt64? : Number → Option Int64
  | integer n _ _ => if n < 0x8000000000000000 then some (Int64.ofInt n) else none
  | float _ => none

/-- `as_f64`: the number as a double; integers of more than 53 bits go to the nearest one. -/
def toBinary64 : Number → Binary64
  | integer n _ _ => Binary64.ofInt n
  | float x => .finite x

end Number

end Json

inductive Json where
  | null
  | bool (b : Bool)
  | number (n : Json.Number)
  | string (s : String)
  | array (elements : List Json)
  | object (members : List (String × Json))

namespace Json

def int (n : Int64) : Json := .number (.ofInt64 n)

/-- Adds a member to members sorted by key, in place of one with the same key. -/
def insertMember {α : Type} (key : String) (value : α) : List (String × α) → List (String × α)
  | [] => [(key, value)]
  | (k, v) :: rest =>
    if key < k then (key, value) :: (k, v) :: rest
    else if key = k then (key, value) :: rest
    else (k, v) :: insertMember key value rest

/-- Members sorted by key; of several with one key the last stays. -/
def sortMembers {α : Type} (members : List (String × α)) : List (String × α) :=
  members.foldl (fun sorted (k, v) => insertMember k v sorted) []

end Json

end SchemaScalar
