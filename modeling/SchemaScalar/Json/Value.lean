import SchemaScalar.Json.Container
import SchemaScalar.Json.Numeral

/-!
# Reading values

`Json.parse` reads a text as a value: an object keeps its members sorted by key and of members with
one key the last, and containers may be nested 127 deep. A value that nobody wants is passed over
instead, with no limit on its depth and no regard to what its numerals and surrogates denote.
-/

namespace SchemaScalar

namespace Json

def depthLimit : Nat := 127

namespace Reader

/-- Reads a value in which containers are nested at most `levels` deep. -/
def valueWithin (levels : Nat) : Reader Json := fun text =>
  match text.dropWhile isBlank with
  | [] => malformedAhead .endInValue []
  | c :: rest =>
    if c = 'n' then (do word ['u', 'l', 'l']; return .null : Reader _) rest
    else if c = 't' then (do word ['r', 'u', 'e']; return .bool true : Reader _) rest
    else if c = 'f' then (do word ['a', 'l', 's', 'e']; return .bool false : Reader _) rest
    else if c = '-' ∨ c.isDigit then (Json.number <$> number) (c :: rest)
    else if c = '"' then (Json.string <$> quotedRest) rest
    else if c = '[' then
      match levels with
      | 0 => malformedAhead .tooDeep (c :: rest)
      | levels + 1 =>
        (do let read ← elements (valueWithin levels)
            endArray
            return .array read : Reader _) rest
    else if c = '\x7b' then
      match levels with
      | 0 => malformedAhead .tooDeep (c :: rest)
      | levels + 1 =>
        (do let read ← members (fun sorted key => do
              colon
              let value ← valueWithin levels
              return insertMember key value sorted) []
            endObject
            return .object read : Reader _) rest
    else malformedAhead .valueExpected (c :: rest)

def value : Reader Json := valueWithin depthLimit

/-- Passes over the items of a container up to its closing bracket; the first argument bounds their
count. -/
def passItemsWithin (item : Reader Unit) (close : Char) (atEnd other : Malformed) :
    Nat → Reader Unit
  | 0 => malformed atEnd
  | bound + 1 => do
    item
    fun text => match text.dropWhile isBlank with
      | [] => malformedAhead atEnd []
      | c :: rest =>
        if c = ',' then passItemsWithin item close atEnd other bound rest
        else if c = close then .ok ((), rest)
        else malformedAhead other (c :: rest)

def passItems (item : Reader Unit) (close : Char) (atEnd other : Malformed) : Reader Unit :=
  fun text => match text.dropWhile isBlank with
  | [] => malformedAhead atEnd []
  | c :: rest =>
    if c = close then .ok ((), rest)
    else passItemsWithin item close atEnd other (text.length + 1) (c :: rest)

/-- `ignore_value`: passes over a value in which containers are nested less than `bound` deep. -/
def passWithin : (bound : Nat) → Reader Unit
  | 0 => malformed .endInValue
  | bound + 1 => fun text =>
    match text.dropWhile isBlank with
    | [] => malformedAhead .endInValue []
    | c :: rest =>
      if c = 'n' then word ['u', 'l', 'l'] rest
      else if c = 't' then word ['r', 'u', 'e'] rest
      else if c = 'f' then word ['a', 'l', 's', 'e'] rest
      else if c = '-' ∨ c.isDigit then passNumeral (c :: rest)
      else if c = '"' then passQuotedRest rest
      else if c = '[' then
        passItems (passWithin bound) ']' .endInArray .commaOrBracketExpected rest
      else if c = '\x7b' then
        passItems (do keyBy passQuotedRest; colon; passWithin bound) '\x7d' .endInObject
          .commaOrBraceExpected rest
      else malformedAhead .valueExpected (c :: rest)

def pass : Reader Unit := fun text => passWithin (text.length + 1) text

end Reader

def read (text : List Char) : Except Fault Json := Reader.whole Reader.value text

def parse (text : String) : Except Fault Json := read text.toList

end Json

end SchemaScalar
