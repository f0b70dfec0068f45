import SchemaScalar.Definition

/-!
# Configurations

A configuration lists definitions, and says whether the built-in scalars come before them. In JSON
both can be left out, and members that are no fields are passed over.
-/

namespace SchemaScalar

/-- `RegistryConfig`: the definitions of a schema's own scalars, and whether the built-in ones are
wanted too. -/
structure Config where
  includeBuiltins : Bool := true
  scalars : List Definition := []
  deriving DecidableEq

namespace Config

/-! ### Writing -/

/-- A configuration as a document, its members in their declared order. -/
def document (config : Config) : Json :=
  .object [("include_builtins", .bool config.includeBuiltins),
    ("scalars", .array (config.scalars.map Definition.document))]

def write (config : Config) : List Char := config.document.write

/-- A configuration as a value, all members sorted by key. -/
def toJson (config : Config) : Json :=
  .object [("include_builtins", .bool config.includeBuiltins),
    ("scalars", .array (config.scalars.map Definition.toJson))]

/-! ### Reading -/

inductive Field where
  | includeBuiltins
  | scalars
  deriving DecidableEq

def Field.label : Field → String
  | includeBuiltins => "include_builtins"
  | scalars => "scalars"

abbrev Field.Content : Field → Type
  | includeBuiltins => Bool
  | scalars => List Definition

def Field.decoder : (field : Field) → Json.Decoder field.Content
  | includeBuiltins => .bool
  | scalars => .list Definition.decoder

/-- The configuration with the given fields, all of which may be left out. -/
def assemble (draft : (field : Field) → Option field.Content) : Except Field Config :=
  .ok {
    includeBuiltins := (draft .includeBuiltins).getD true
    scalars := (draft .scalars).getD [] }

/-- Configurations as records, with any other members besides their fields. -/
def record : Json.Record Field Config where
  title := "RegistryConfig"
  fields := [.includeBuiltins, .scalars]
  label := Field.label
  Content := Field.Content
  decoder := Field.decoder
  isClosed := false
  assemble := assemble

def decoder : Json.Decoder Config := record.toDecoder

/-- Reads a text as a configuration. -/
def read (text : List Char) : Except Json.Fault Config := decoder.read text

/-- Takes a value as a configuration. -/
def ofJson (value : Json) : Except Json.Complaint Config := decoder.ofJson value

end Config

end SchemaScalar
