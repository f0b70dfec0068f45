import SchemaScalar.Json.Decoder

/-!
# Records

A record is a fixed set of named fields. In JSON it is an object with the fields as members in any
order, or an array with the fields in their declared order. What was read so far is a draft, which
holds a value for some of the fields; `assemble` turns a draft into the finished thing, or names the
first field that cannot be left out.
-/

namespace SchemaScalar

namespace Json

/-- A set of named fields, and what is made of them. -/
structure Record (Field : Type) (α : Type) where
  title : String
  /-- The fields in their declared order. -/
  fields : List Field
  label : Field → String
  Content : Field → Type
  decoder : (field : Field) → Decoder (Content field)
  /-- Whether members that are no fields are refused. -/
  isClosed : Bool
  assemble : ((field : Field) → Option (Content field)) → Except Field α

namespace Record

variable {Field α : Type}

/-- What was read so far. -/
abbrev Draft (record : Record Field α) : Type := (field : Field) → Option (record.Content field)

def blank (record : Record Field α) : record.Draft := fun _ => none

/-- A draft with one more field. -/
def fill [DecidableEq Field] (record : Record Field α) (draft : record.Draft) (field : Field)
    (content : record.Content field) : record.Draft := fun other =>
  if h : other = field then some (h ▸ content) else draft other

def field? (record : Record Field α) (name : String) : Option Field :=
  record.fields.find? fun field => record.label field == name

def labels (record : Record Field α) : List String := record.fields.map record.label

/-- How complaints name the record. -/
def expected (record : Record Field α) : String := "struct " ++ record.title

/-- The complaint that an array has fewer elements than the record has fields to be given. -/
def tooShort (record : Record Field α) (length : Nat) : Complaint :=
  .invalidLength length
    (record.expected ++ " with " ++ toString record.fields.length ++
      (if record.fields.length = 1 then " element" else " elements"))

variable [DecidableEq Field]

/-! ### From a text -/

/-- Reads one member after its key. A field that occurs twice is noticed at its second key. -/
def readMember (record : Record Field α) (draft : record.Draft) (name : String) :
    Reader record.Draft :=
  match record.field? name with
  | some field =>
    if (draft field).isSome then
      Reader.complainAfter Reader.endObject (.duplicateField name)
    else do
      Reader.colon
      let content ← (record.decoder field).ofText
      return record.fill draft field content
  | none =>
    if record.isClosed then
      Reader.complainAfter Reader.endObject (.unknownField name record.labels)
    else do
      Reader.colon
      Reader.pass
      return draft

def readObject (record : Record Field α) : Reader α := do
  let draft ← Reader.members record.readMember record.blank
  match record.assemble draft with
  | .ok assembled =>
    Reader.endObject
    return assembled
  | .error field => Reader.complainAfter Reader.endObject (.missingField (record.label field))

/-- Reads elements of an array as the given fields, until there are no more of either; also counts
them. -/
def readPositions (record : Record Field α) :
    List Field → Nat → record.Draft → Reader (Nat × record.Draft)
  | [], count, draft => return (count, draft)
  | field :: fields, count, draft => do
    if ← Reader.nextElement (count == 0) then
      let content ← (record.decoder field).ofText
      readPositions record fields (count + 1) (record.fill draft field content)
    else return (count, draft)

def readArray (record : Record Field α) : Reader α := do
  let (count, draft) ← record.readPositions record.fields 0 record.blank
  match record.assemble draft with
  | .ok assembled =>
    Reader.endArray
    return assembled
  | .error _ => Reader.complainAfter Reader.endArray (record.tooShort count)

/-! ### From a value -/

def takeMember (record : Record Field α) (draft : record.Draft) (name : String) (value : Json) :
    Except Complaint record.Draft :=
  match record.field? name with
  | some field =>
    if (draft field).isSome then .error (.duplicateField name)
    else do
      let content ← (record.decoder field).ofJson value
      return record.fill draft field content
  | none => if record.isClosed then .error (.unknownField name record.labels) else .ok draft

def takeObject (record : Record Field α) (members : List (String × Json)) : Except Complaint α := do
  let draft ← members.foldlM (fun draft (name, value) => record.takeMember draft name value)
    record.blank
  match record.assemble draft with
  | .ok assembled => return assembled
  | .error field => .error (.missingField (record.label field))

def takePositions (record : Record Field α) :
    List Field → List Json → record.Draft → Except Complaint record.Draft
  | field :: fields, value :: values, draft => do
    let content ← (record.decoder field).ofJson value
    takePositions record fields values (record.fill draft field content)
  | _, _, draft => return draft

def takeArray (record : Record Field α) (elements : List Json) : Except Complaint α := do
  let draft ← record.takePositions record.fields elements record.blank
  match record.assemble draft with
  | .ok assembled =>
    if elements.length ≤ record.fields.length then return assembled
    else .error (.invalidLength elements.length "fewer elements in array")
  | .error _ => .error (record.tooShort elements.length)

/-- A record as an object or as an array. -/
def toDecoder (record : Record Field α) : Decoder α where
  ofText := .present fun text =>
    match text with
    | '[' :: rest => record.readArray rest
    | '\x7b' :: rest => record.readObject rest
    | _ => Reader.mistyped record.expected text
  ofJson
    | .array elements => record.takeArray elements
    | .object members => record.takeObject members
    | other => other.mistyped record.expected

end Record

end Json

end SchemaScalar
