import SchemaScalar.Builtin
import SchemaScalar.Json.Record

/-!
# Definitions

A definition describes a bounded string or integer as data: the key under which it is registered,
what it is based on, and its limits. Not every definition makes sense; `build` makes the scalar or
says what is wrong. In JSON a definition is a record that may leave out everything but key and base.
-/

namespace SchemaScalar

/-- `BaseScalar`: what a definition can be based on. -/
inductive Base where
  | string
  | int
  deriving DecidableEq

def Base.choices : List (String × Base) := [("string", .string), ("int", .int)]

def Base.label : Base → String
  | string => "string"
  | int => "int"

/-- `ScalarDefinition`: a bounded string or integer, as data. -/
structure Definition where
  key : String
  base : Base
  name : Option String
  description : Option String
  min : Option Int64
  max : Option Int64
  deriving DecidableEq

namespace Definition

/-! ### Building -/

/-- What can be wrong with a definition. -/
inductive Flaw where
  | invertedBounds (key : String) (min max : Int64)
  | negativeLength (key : String) (bound : Int64)
  | renamedInt (key : String)
  | emptyBounds (key : String)
  deriving DecidableEq

def Flaw.message : Flaw → String
  | invertedBounds key min max =>
    "definition `" ++ key ++ "` has min " ++ Magnitude.text min ++ " greater than max " ++
      Magnitude.text max
  | negativeLength key bound =>
    "definition `" ++ key ++ "` has negative length bound " ++ Magnitude.text bound
  | renamedInt key => "definition `" ++ key ++ "` is an int refinement and keeps the name `Int`"
  | emptyBounds key => "definition `" ++ key ++ "` must declare `min`, `max`, or both"

/-- The bound with the given ends, if it has any. -/
def bound? {α : Type} : Option α → Option α → Option (Bound α)
  | some least, some greatest => some (.range least greatest)
  | some least, none => some (.min least)
  | none, some greatest => some (.max greatest)
  | none, none => none

/-- A limit on a length, which must not be negative. -/
def length (definition : Definition) : Option Int64 → Except Flaw (Option Nat)
  | none => .ok none
  | some n => if n < 0 then .error (.negativeLength definition.key n) else .ok (some n.toInt.toNat)

/-- Puts the description of a definition, if it has one, in place of the generated one. -/
def describe {leaf : Leaf} (definition : Definition) (descriptor : Descriptor leaf) :
    Descriptor leaf :=
  match definition.description with
  | some description => descriptor.describe description
  | none => descriptor

/-- Puts the name of a definition, if it has one, in place of its base's. -/
def rename {leaf : Leaf} (definition : Definition) (descriptor : Descriptor leaf) :
    Descriptor leaf :=
  match definition.name with
  | some name => descriptor.rename name
  | none => descriptor

def buildString (definition : Definition) : Except Flaw (Descriptor .string) := do
  let min ← definition.length definition.min
  let max ← definition.length definition.max
  match bound? min max with
  | some bound => return definition.describe (definition.rename (.boundedString bound))
  | none => .error (.emptyBounds definition.key)

/-- `build_int`: unlike a string, an integer cannot be named. -/
def buildInt (definition : Definition) : Except Flaw (Descriptor .int) :=
  if definition.name.isSome then .error (.renamedInt definition.key)
  else match bound? definition.min definition.max with
    | some bound => .ok (definition.describe (.boundedInt bound))
    | none => .error (.emptyBounds definition.key)

/-- Whether both limits are set and the lower is above the upper. -/
def inverted? (definition : Definition) : Option (Int64 × Int64) :=
  match definition.min, definition.max with
  | some min, some max => if max < min then some (min, max) else none
  | _, _ => none

/-- `build`: limits the wrong way round are told before anything else. -/
def build (definition : Definition) : Except Flaw Scalar :=
  match definition.inverted? with
  | some (min, max) => .error (.invertedBounds definition.key min max)
  | none =>
    match definition.base with
    | .string => (fun descriptor => ⟨.string, descriptor⟩) <$> definition.buildString
    | .int => (fun descriptor => ⟨.int, descriptor⟩) <$> definition.buildInt

/-! ### Writing -/

/-- The members of a definition in their declared order; what is not set is left out. -/
def members (definition : Definition) : List (String × Json) :=
  [("key", .string definition.key), ("base", .string definition.base.label)]
    ++ (definition.name.map fun text => ("name", Json.string text)).toList
    ++ (definition.description.map fun text => ("description", Json.string text)).toList
    ++ (definition.min.map fun n => ("min", Json.int n)).toList
    ++ (definition.max.map fun n => ("max", Json.int n)).toList

/-- A definition as a document, its members in their declared order. -/
def document (definition : Definition) : Json := .object definition.members

/-- A definition as a value, its members sorted by key. -/
def toJson (definition : Definition) : Json := .object (Json.sortMembers definition.members)

/-! ### Reading -/

inductive Field where
  | key
  | base
  | name
  | description
  | min
  | max
  deriving DecidableEq

def Field.label : Field → String
  | key => "key"
  | base => "base"
  | name => "name"
  | description => "description"
  | min => "min"
  | max => "max"

abbrev Field.Content : Field → Type
  | key => String
  | base => Base
  | name => Option String
  | description => Option String
  | min => Option Int64
  | max => Option Int64

def Field.decoder : (field : Field) → Json.Decoder field.Content
  | key => .string
  | base => .choice Base.choices
  | name => .optional .string
  | description => .optional .string
  | min => .optional .int64
  | max => .optional .int64

/-- The definition with the given fields; those but key and base may be left out. -/
def assemble (draft : (field : Field) → Option field.Content) : Except Field Definition :=
  match draft .key, draft .base with
  | none, _ => .error .key
  | some _, none => .error .base
  | some key, some base =>
    .ok {
      key, base
      name := (draft .name).join
      description := (draft .description).join
      min := (draft .min).join
      max := (draft .max).join }

/-- Definitions as records, with no members but their fields. -/
def record : Json.Record Field Definition where
  title := "ScalarDefinition"
  fields := [.key, .base, .name, .description, .min, .max]
  label := Field.label
  Content := Field.Content
  decoder := Field.decoder
  isClosed := true
  assemble := assemble

def decoder : Json.Decoder Definition := record.toDecoder

/-- Reads a text as a definition. -/
def read (text : List Char) : Except Json.Fault Definition := decoder.read text

/-- Takes a value as a definition. -/
def ofJson (value : Json) : Except Json.Complaint Definition := decoder.ofJson value

end Definition

end SchemaScalar
