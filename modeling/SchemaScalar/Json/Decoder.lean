import SchemaScalar.Json.Value

/-!
# Decoders

A decoder wants JSON of one shape, and takes it either from a text or from a value that was read
before. The two ways differ in what they can tell about a mistake: a text has places, a value has
none, and in a value the members of an object come sorted by key.
-/

namespace SchemaScalar

namespace Json

/-- `Deserialize`: two ways to take something from JSON. -/
structure Decoder (α : Type) where
  ofText : Reader α
  ofJson : Json → Except Complaint α

namespace Reader

variable {α : Type}

def complain (what : Complaint) : Reader α := fail (.complaint what)

/-- Hands on a result, a complaint being about the text just read. -/
def ofExcept : Except Complaint α → Reader α
  | .ok value => done value
  | .error what => complain what

/-- Passes over blanks to what `reader` reads; something must be left. -/
def present (reader : Reader α) : Reader α := fun text =>
  match text.dropWhile isBlank with
  | [] => malformedAhead .endInValue []
  | c :: rest => reader (c :: rest)

/-- Reads what stands where something else was wanted, of a container nothing. -/
def found : Reader Found := fun text =>
  match text with
  | [] => malformedAhead .endInValue []
  | c :: rest =>
    if c = 'n' then (do word ['u', 'l', 'l']; return .null : Reader _) rest
    else if c = 't' then (do word ['r', 'u', 'e']; return .bool true : Reader _) rest
    else if c = 'f' then (do word ['a', 'l', 's', 'e']; return .bool false : Reader _) rest
    else if c = '-' ∨ c.isDigit then (Found.ofNumber <$> number) (c :: rest)
    else if c = '"' then (Found.string <$> quotedRest) rest
    else if c = '[' then .ok (.sequence, c :: rest)
    else if c = '\x7b' then .ok (.map, c :: rest)
    else malformedAhead .valueExpected (c :: rest)

/-- Refuses what stands here because something else was wanted. -/
def mistyped (expected : String) : Reader α := do
  let what ← found
  complain (.invalidType what expected)

end Reader

def mistyped {α : Type} (value : Json) (expected : String) : Except Complaint α :=
  .error (.invalidType (.ofJson value) expected)

/-- A number as a signed 64-bit integer; a double is of another type, a larger integer too large. -/
def Number.toInt64 : Number → Except Complaint Int64
  | .integer n _ _ =>
    if n < 0x8000000000000000 then .ok (Int64.ofInt n)
    else .error (.invalidValue (.integer n) "i64")
  | .float x => .error (.invalidType (.float x) "i64")

namespace Decoder

variable {α : Type}

def bool : Decoder Bool where
  ofText := .present fun text =>
    match text with
    | 't' :: rest => (do Reader.word ['r', 'u', 'e']; return true : Reader _) rest
    | 'f' :: rest => (do Reader.word ['a', 'l', 's', 'e']; return false : Reader _) rest
    | _ => Reader.mistyped "a boolean" text
  ofJson
    | .bool b => .ok b
    | other => other.mistyped "a boolean"

def string : Decoder String where
  ofText := .present fun text =>
    match text with
    | '"' :: rest => Reader.quotedRest rest
    | _ => Reader.mistyped "a string" text
  ofJson
    | .string s => .ok s
    | other => other.mistyped "a string"

/-- A signed 64-bit integer, written without fraction and exponent. -/
def int64 : Decoder Int64 where
  ofText := .present fun text =>
    match text with
    | c :: rest =>
      if c = '-' ∨ c.isDigit then
        (do let n ← Reader.number; Reader.ofExcept n.toInt64 : Reader _) (c :: rest)
      else Reader.mistyped "i64" (c :: rest)
    | [] => Reader.mistyped "i64" []
  ofJson
    | .number n => n.toInt64
    | other => other.mistyped "i64"

/-- Nothing but `null`. -/
def unit : Decoder Unit where
  ofText := .present fun text =>
    match text with
    | 'n' :: rest => Reader.word ['u', 'l', 'l'] rest
    | _ => Reader.mistyped "unit" text
  ofJson
    | .null => .ok ()
    | other => other.mistyped "unit"

/-- Either `null` or what `inner` wants. -/
def optional (inner : Decoder α) : Decoder (Option α) where
  ofText := fun text =>
    match text.dropWhile Reader.isBlank with
    | 'n' :: rest => (do Reader.word ['u', 'l', 'l']; return none : Reader _) rest
    | left => (some <$> inner.ofText) left
  ofJson
    | .null => .ok none
    | other => some <$> inner.ofJson other

/-- An array of what `inner` wants. -/
def list (inner : Decoder α) : Decoder (List α) where
  ofText := .present fun text =>
    match text with
    | '[' :: rest =>
      (do let read ← Reader.elements inner.ofText
          Reader.endArray
          return read : Reader _) rest
    | _ => Reader.mistyped "a sequence" text
  ofJson
    | .array elements => elements.mapM inner.ofJson
    | other => other.mistyped "a sequence"

def choose (choices : List (String × α)) (name : String) : Except Complaint α :=
  match choices.find? fun choice => choice.1 == name with
  | some choice => .ok choice.2
  | none => .error (.unknownVariant name (choices.map Prod.fst))

/-- The name of a choice in a text, after its opening quote. -/
def choiceName (choices : List (String × α)) : Reader α := do
  let name ← Reader.quotedRest
  Reader.ofExcept (choose choices name)

/-- The only key of an object, which is the name of a choice. Where the object is empty, what it
lacks is a value. -/
def choiceKey (choices : List (String × α)) : Reader α := fun text =>
  match text.dropWhile Reader.isBlank with
  | '\x7d' :: rest => Reader.malformedAhead .valueExpected ('\x7d' :: rest)
  | left => Reader.keyBy (choiceName choices) left

/-- The brace after the only member of an object. -/
def closeSingle : Reader Unit := fun text =>
  match text.dropWhile Reader.isBlank with
  | [] => Reader.malformed .endInObject []
  | c :: rest => if c = '\x7d' then .ok ((), rest) else Reader.malformed .valueExpected (c :: rest)

/-- One of several choices, given by its name or as an object that maps its name to `null`. -/
def choice (choices : List (String × α)) : Decoder α where
  ofText := .present fun text =>
    match text with
    | '"' :: rest => choiceName choices rest
    | '\x7b' :: rest =>
      (do let chosen ← choiceKey choices
          Reader.colon
          unit.ofText
          closeSingle
          return chosen : Reader _) rest
    | _ => Reader.malformedAhead .valueExpected text
  ofJson
    | .string name => choose choices name
    | .object [(name, value)] => do
      let chosen ← choose choices name
      unit.ofJson value
      return chosen
    | .object _ => .error (.invalidValue .map "map with a single key")
    | other => other.mistyped "string or map"

def read (decoder : Decoder α) (text : List Char) : Except Fault α :=
  Reader.whole decoder.ofText text

end Decoder

end Json

end SchemaScalar
