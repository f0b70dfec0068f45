import SchemaScalar.Json.Quoted

/-!
# Arrays and objects

What stands between the elements of an array and the members of an object, and the loops over them.
A comma must be followed by another element or member. The closing bracket is left for `endArray`
and `endObject`, which also tell what is wrong where something else stands there.
-/

namespace SchemaScalar

namespace Json

namespace Reader

variable {α σ : Type}

/-- Goes to the next element of an array, past the comma unless it is the first; false at the end of
the array. -/
def nextElement (isFirst : Bool) : Reader Bool := fun text =>
  match text.dropWhile isBlank with
  | [] => malformedAhead .endInArray []
  | c :: rest =>
    if c = ']' then .ok (false, c :: rest)
    else if isFirst then .ok (true, c :: rest)
    else if c = ',' then
      match rest.dropWhile isBlank with
      | [] => malformedAhead .endInValue []
      | d :: more =>
        if d = ']' then malformedAhead .trailingComma (d :: more) else .ok (true, d :: more)
    else malformedAhead .commaOrBracketExpected (c :: rest)

def endArray : Reader Unit := fun text =>
  match text.dropWhile isBlank with
  | [] => malformedAhead .endInArray []
  | c :: rest =>
    if c = ']' then .ok ((), rest)
    else if c = ',' then
      match rest.dropWhile isBlank with
      | [] => malformedAhead .trailingCharacters []
      | d :: more =>
        malformedAhead (if d = ']' then .trailingComma else .trailingCharacters) (d :: more)
    else malformedAhead .trailingCharacters (c :: rest)

/-- A key, given that one must stand here. -/
def key : Reader String := fun text =>
  match text with
  | '"' :: rest => quotedRest rest
  | _ => malformedAhead .keyNotString text

/-- A key that must follow, read by `inner` after its opening quote. -/
def keyBy (inner : Reader α) : Reader α := fun text =>
  match text.dropWhile isBlank with
  | [] => malformedAhead .endInObject []
  | c :: rest => if c = '"' then inner rest else malformedAhead .keyNotString (c :: rest)

/-- The key of the next member of an object, past the comma unless it is the first; none at the end
of the object. -/
def nextKey (isFirst : Bool) : Reader (Option String) := fun text =>
  match text.dropWhile isBlank with
  | [] => malformedAhead .endInObject []
  | c :: rest =>
    if c = '\x7d' then .ok (none, c :: rest)
    else if isFirst then (some <$> key) (c :: rest)
    else if c = ',' then
      match rest.dropWhile isBlank with
      | [] => malformedAhead .endInValue []
      | d :: more =>
        if d = '\x7d' then malformedAhead .trailingComma (d :: more) else (some <$> key) (d :: more)
    else malformedAhead .commaOrBraceExpected (c :: rest)

def endObject : Reader Unit := fun text =>
  match text.dropWhile isBlank with
  | [] => malformedAhead .endInObject []
  | c :: rest =>
    if c = '\x7d' then .ok ((), rest)
    else malformedAhead (if c = ',' then .trailingComma else .trailingCharacters) (c :: rest)

def colon : Reader Unit := fun text =>
  match text.dropWhile isBlank with
  | [] => malformedAhead .endInObject []
  | c :: rest => if c = ':' then .ok ((), rest) else malformedAhead .colonExpected (c :: rest)

/-- The elements of an array, each read by `item`; the first argument bounds their count. -/
def elementsWithin (item : Reader α) : Nat → Bool → Reader (List α)
  | 0, _ => malformed .endInArray
  | bound + 1, isFirst => do
    if ← nextElement isFirst then
      let element ← item
      let others ← elementsWithin item bound false
      return element :: others
    else return []

/-- The elements of an array after its opening bracket. -/
def elements (item : Reader α) : Reader (List α) := fun text =>
  elementsWithin item (text.length + 1) true text

/-- The members of an object, gathered one by one: `step` reads what follows a key. The first
argument bounds their count. -/
def membersWithin (step : σ → String → Reader σ) : Nat → Bool → σ → Reader σ
  | 0, _, _ => malformed .endInObject
  | bound + 1, isFirst, gathered => do
    match ← nextKey isFirst with
    | some key =>
      let gathered ← step gathered key
      membersWithin step bound false gathered
    | none => return gathered

/-- The members of an object after its opening brace. -/
def members (step : σ → String → Reader σ) (start : σ) : Reader σ := fun text =>
  membersWithin step (text.length + 1) true start text

end Reader

end Json

end SchemaScalar
