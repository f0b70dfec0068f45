import SchemaScalar.Proofs.Json.Record
import SchemaScalar.Proofs.Leaf.RoundTrip
import SchemaScalar.Registry

/-!
# Configurations read back

A definition is written field by field, and each field is taken back as it was, whatever its text
and its numbers: what is not set is left out, and what is left out is not set. So definitions and
configurations come back from their documents, from their values, where members are sorted, and
from their texts (`Config.parse_write`).
-/

namespace SchemaScalar

/-! ## Definitions -/

namespace Definition

/-- The value with which each field is written, if it is set. -/
def written (definition : Definition) : Field → Option Json
  | .key => some (.string definition.key)
  | .base => some (.string definition.base.label)
  | .name => definition.name.map .string
  | .description => definition.description.map .string
  | .min => definition.min.map Json.int
  | .max => definition.max.map Json.int

/-- What is read of each field, if it is set. -/
def draft (definition : Definition) : record.Draft
  | .key => some definition.key
  | .base => some definition.base
  | .name => definition.name.map some
  | .description => definition.description.map some
  | .min => definition.min.map some
  | .max => definition.max.map some

theorem tellsFields : record.TellsFields where
  nodup := by decide
  field?_label := by
    intro field
    cases field <;> rfl

theorem members_eq (definition : Definition) :
    definition.members = record.writtenMembers definition.written := by
  obtain ⟨key, base, name, description, min, max⟩ := definition
  cases name <;> cases description <;> cases min <;> cases max <;> rfl

theorem take_text (text : Option String) :
    (text.map Json.string).mapM (Json.Decoder.optional .string).ofJson = .ok (text.map some) := by
  cases text <;> rfl

theorem take_int (n : Option Int64) :
    (n.map Json.int).mapM (Json.Decoder.optional .int64).ofJson = .ok (n.map some) := by
  cases n with
  | none => rfl
  | some n =>
    have hn : (Json.Number.ofInt64 n).toInt64 = .ok n :=
      Json.Number.toInt64_eq_ok_iff.2 (Json.Number.toInt64?_ofInt64 n)
    have htake : (Json.Decoder.optional .int64).ofJson (Json.int n) = .ok (some n) := by
      show some <$> (Json.Number.ofInt64 n).toInt64 = _
      rw [hn]
      rfl
    rw [Option.map_some, Option.mapM_some, htake]
    rfl

/-- **Each field is taken back as it was.** -/
theorem take_written (definition : Definition) (field : Field) :
    (definition.written field).mapM (record.decoder field).ofJson =
      .ok (definition.draft field) := by
  cases field with
  | key => rfl
  | base => cases hb : definition.base <;> simp only [written, draft, hb] <;> rfl
  | name => exact take_text definition.name
  | description => exact take_text definition.description
  | min => exact take_int definition.min
  | max => exact take_int definition.max

theorem assemble_draft (definition : Definition) :
    assemble definition.draft = .ok definition := by
  obtain ⟨key, base, name, description, min, max⟩ := definition
  cases name <;> cases description <;> cases min <;> cases max <;> rfl

/-- A definition comes back from its members in any order. -/
theorem ofJson_of_perm (definition : Definition) {members : List (String × Json)}
    (h : members.Perm definition.members) : ofJson (.object members) = .ok definition :=
  Json.Record.takeObject_written tellsFields (take_written definition) (members_eq definition ▸ h)
    (assemble_draft definition)

theorem ofJson_document (definition : Definition) : ofJson definition.document = .ok definition :=
  ofJson_of_perm definition (.refl _)

theorem ofJson_toJson (definition : Definition) : ofJson definition.toJson = .ok definition := by
  have hnames : (definition.members.map Prod.fst).Nodup :=
    members_eq definition ▸ Json.Record.names_nodup tellsFields definition.written
  exact ofJson_of_perm definition (Json.sortMembers_perm hnames)

theorem readsText_field (field : Field) (value : Json) :
    (record.decoder field).ReadsText value := by
  cases field with
  | key => exact Json.Decoder.readsText_string value
  | base => exact Json.Decoder.readsText_choice _ value
  | name => exact Json.Decoder.readsText_optional (Json.Decoder.readsText_string value)
  | description => exact Json.Decoder.readsText_optional (Json.Decoder.readsText_string value)
  | min => exact Json.Decoder.readsText_optional (Json.Decoder.readsText_int64 value)
  | max => exact Json.Decoder.readsText_optional (Json.Decoder.readsText_int64 value)

theorem readsText_document (definition : Definition) : decoder.ReadsText definition.document := by
  refine Json.Record.readsText_object ?_
  rintro ⟨name, value⟩ hmem
  rw [members_eq] at hmem
  obtain ⟨field, rfl, -⟩ := (Json.Record.mem_writtenMembers tellsFields).1 hmem
  exact ⟨field, tellsFields.field?_label field, readsText_field field value⟩

end Definition

/-! ## Configurations -/

namespace Config

def written (config : Config) (document : Definition → Json) : Field → Option Json
  | .includeBuiltins => some (.bool config.includeBuiltins)
  | .scalars => some (.array (config.scalars.map document))

def draft (config : Config) : record.Draft
  | .includeBuiltins => some config.includeBuiltins
  | .scalars => some config.scalars

theorem tellsFields : record.TellsFields where
  nodup := by decide
  field?_label := by
    intro field
    cases field <;> rfl

theorem take_definitions {document : Definition → Json}
    (h : ∀ definition, Definition.ofJson (document definition) = .ok definition)
    (definitions : List Definition) :
    (definitions.map document).mapM Definition.decoder.ofJson = .ok definitions := by
  induction definitions with
  | nil => rfl
  | cons definition definitions ih =>
    have hfirst : Definition.decoder.ofJson (document definition) = .ok definition := h definition
    rw [List.map_cons, List.mapM_cons, hfirst, ih]
    rfl

/-- A configuration comes back if its definitions do. -/
theorem ofJson_of_definitions {document : Definition → Json}
    (h : ∀ definition, Definition.ofJson (document definition) = .ok definition)
    (config : Config) :
    ofJson (.object [("include_builtins", .bool config.includeBuiltins),
      ("scalars", .array (config.scalars.map document))]) = .ok config := by
  have htaken : ∀ field, (config.written document field).mapM (record.decoder field).ofJson =
      .ok (config.draft field) := by
    intro field
    cases field with
    | includeBuiltins => rfl
    | scalars =>
      have hlist : (record.decoder .scalars).ofJson (.array (config.scalars.map document)) =
          .ok config.scalars := take_definitions h config.scalars
      simp only [written, draft, Option.mapM_some, hlist]
      rfl
  have hassemble : record.assemble config.draft = .ok config := rfl
  exact Json.Record.takeObject_written tellsFields htaken (.refl _) hassemble

theorem ofJson_document (config : Config) : ofJson config.document = .ok config :=
  ofJson_of_definitions Definition.ofJson_document config

theorem ofJson_toJson (config : Config) : ofJson config.toJson = .ok config :=
  ofJson_of_definitions Definition.ofJson_toJson config

theorem readsText_document (config : Config) : decoder.ReadsText config.document := by
  refine Json.Record.readsText_object ?_
  intro member hmem
  rcases List.mem_cons.1 hmem with rfl | hmem
  · exact ⟨.includeBuiltins, rfl, Json.Decoder.readsText_bool _⟩
  · obtain rfl := List.mem_singleton.1 hmem
    refine ⟨.scalars, rfl, Json.Decoder.readsText_list ?_⟩
    intro element helement
    obtain ⟨definition, -, rfl⟩ := List.mem_map.1 helement
    exact definition.readsText_document

theorem parse_eq_ok_iff {text : String} {config : Config} :
    parse text = .ok config ↔ read text.toList = .ok config := by
  unfold parse
  cases read text.toList with
  | ok found => simp
  | error fault => exact iff_of_false (by rintro ⟨⟩) (by rintro ⟨⟩)

/-- **A configuration is read back from its text.** -/
theorem parse_write (config : Config) : parse (String.ofList config.write) = .ok config := by
  rw [parse_eq_ok_iff, String.toList_ofList]
  exact Json.Decoder.read_write (readsText_document config) (ofJson_document config)

/-- Configurations with one text are one configuration. -/
theorem write_inj {config other : Config} : config.write = other.write ↔ config = other := by
  constructor
  · intro h
    have hparse := parse_write config
    rw [h, parse_write other] at hparse
    exact (Except.ok.inj hparse).symm
  · rintro rfl
    rfl

/-- The text in which a configuration is written after it was read. -/
def normalize (text : String) : Except RegistryError String :=
  (fun config => String.ofList config.write) <$> parse text

/-- **Configurations survive as documents.** Every configuration is read back from its text, and
taken back from its value. So two configurations never have one text, and a text that was normalized
is not changed any more. -/
theorem survives_document (config : Config) :
    parse (String.ofList config.write) = .ok config ∧
    ofJson config.toJson = .ok config ∧
    (∀ other : Config, config.write = other.write ↔ config = other) ∧
    ∀ text written : String, normalize text = .ok written → normalize written = .ok written := by
  refine ⟨parse_write config, ofJson_toJson config, fun _ => write_inj, ?_⟩
  intro text written h
  obtain ⟨found, -, hwritten⟩ := Json.exists_of_bind_eq_ok h
  cases hwritten
  rw [normalize, parse_write found]
  rfl

/-- A text with a member that is no field, with a base given as an object and with a control
character, is normalized once. -/
theorem survives_document_reordered :
    let text :=
      "\x7b\"x\":[1.5],\"scalars\":[\x7b\"base\":\x7b\"int\":null\x7d,\"key\":\"\\t\"\x7d]\x7d"
    let written :=
      "\x7b\"include_builtins\":true,\"scalars\":[\x7b\"key\":\"\\t\",\"base\":\"int\"\x7d]\x7d"
    normalize text = .ok written ∧ normalize written = .ok written := by
  intro text written
  have hsome : (normalize text).toOption = some written := by decide +kernel
  cases h : normalize text with
  | error fault =>
    rw [h] at hsome
    cases hsome
  | ok found =>
    rw [h] at hsome
    obtain rfl := Option.some.inj hsome
    exact ⟨rfl, (survives_document {}).2.2.2 _ _ h⟩

end Config

end SchemaScalar
