import SchemaScalar.Proofs.Config.RoundTrip
import SchemaScalar.Proofs.Json.Sorted

/-!
# Definitions from texts and from values

A definition is read from a text in the order of the text, and taken from a value that was read of
the text, in which the members are sorted and none is there twice. Both come to the document between
them: the text is read as its document is taken, whatever its shape, and to sort a document makes no
difference unless an object repeats a name (`read_iff_ofJson`).
-/

namespace SchemaScalar.Definition

open Json (toOption_eq_some_iff)
open Json.Decoder

theorem Field.readsDocuments (field : Field) : field.decoder.ReadsDocuments := by
  cases field with
  | key => exact readsDocuments_string
  | base => exact readsDocuments_choice Base.choices
  | name => exact readsDocuments_optional readsDocuments_string
  | description => exact readsDocuments_optional readsDocuments_string
  | min => exact readsDocuments_optional readsDocuments_int64
  | max => exact readsDocuments_optional readsDocuments_int64

theorem Field.takesSorted (field : Field) : field.decoder.TakesSorted := by
  cases field with
  | key => exact takesSorted_string
  | base => exact takesSorted_choice Base.choices
  | name => exact takesSorted_optional takesSorted_string
  | description => exact takesSorted_optional takesSorted_string
  | min => exact takesSorted_optional takesSorted_int64
  | max => exact takesSorted_optional takesSorted_int64

theorem readsDocuments : decoder.ReadsDocuments :=
  record.readsDocuments_toDecoder rfl Field.readsDocuments

theorem takesSorted : decoder.TakesSorted := record.takesSorted_toDecoder Field.takesSorted

/-- A document that gives a field twice is no definition. -/
theorem ofJson_ne_ok {members : List (String × Json)} {field : Field}
    (h : 2 ≤ (members.map Prod.fst).count field.label) (definition : Definition) :
    ofJson (.object members) ≠ .ok definition :=
  Json.Record.takeObject_ne_ok (tellsFields.field?_label field) h definition

/-- **Reading a definition from a text and from the value of the text agree**, for every text of
JSON. The value is the document of the text with its members sorted, and

1. if no object in the document repeats a name, the text is read as a definition exactly if the value
   is, and as the same one;
2. if the document is an object that repeats the name of a field, the text is not read as a
   definition, whatever becomes of the value. -/
theorem read_iff_ofJson {text : List Char} {value : Json} (h : Json.read text = .ok value) :
    ∃ document, Json.readDocument text = .ok document ∧ document.sorted = value ∧
      (document.isRepeatFree = true → ∀ definition,
        read text = .ok definition ↔ ofJson value = .ok definition) ∧
      ∀ members, document = .object members → ∀ field : Field,
        2 ≤ (members.map Prod.fst).count field.label →
          ∀ definition, read text ≠ .ok definition := by
  rw [Json.read_eq] at h
  cases hdocument : Json.readDocument text with
  | error fault =>
    rw [hdocument] at h
    cases h
  | ok document =>
    rw [hdocument] at h
    cases h
    have hread : ∀ definition, read text = .ok definition ↔ ofJson document = .ok definition :=
      readsDocuments.read_iff hdocument
    refine ⟨document, rfl, rfl, ?_, ?_⟩
    · intro hnone definition
      rw [hread]
      exact (takesSorted document hnone definition).symm
    · rintro members rfl field hfield definition hdefinition
      exact ofJson_ne_ok hfield definition ((hread definition).1 hdefinition)

/-- Members out of order, with blanks, a base given as an object and a limit left unset, make the
same definition both ways. With a limit given twice the value still makes one, but not the text. -/
theorem read_iff_ofJson_twice :
    let text :=
      " \x7b\"min\": 1, \"base\":\x7b\"int\":null\x7d,\"max\":null ,\"key\":\"k\"\x7d\n"
    let twice := "\x7b\"min\":2,\"base\":\"int\",\"min\":1,\"key\":\"k\"\x7d"
    (∃ value, Json.read text.toList = .ok value ∧
      ofJson value = .ok ⟨"k", .int, none, none, some 1, none⟩) ∧
    (∃ value, Json.read twice.toList = .ok value ∧
      ofJson value = .ok ⟨"k", .int, none, none, some 1, none⟩) ∧
    ∀ definition, read twice.toList ≠ .ok definition := by
  intro text twice
  have hparsed : (Json.read text.toList).toOption.isSome = true := by decide +kernel
  have htext : (read text.toList).toOption = some ⟨"k", .int, none, none, some 1, none⟩ := by
    decide +kernel
  have hfree : (Json.readDocument text.toList).toOption.map Json.isRepeatFree = some true := by
    decide +kernel
  have htwice : (Json.read twice.toList).toOption.map (fun value => (ofJson value).toOption) =
      some (some ⟨"k", .int, none, none, some 1, none⟩) := by
    decide +kernel
  have hcount : (Json.readDocument twice.toList).toOption.map (fun document =>
      match document with
      | .object members => (members.map Prod.fst).count Field.min.label
      | _ => 0) = some 2 := by
    decide +kernel
  constructor
  · obtain ⟨value, hvalue⟩ := Option.isSome_iff_exists.1 hparsed
    have hvalue := toOption_eq_some_iff.1 hvalue
    obtain ⟨document, hdocument, -, hsame, -⟩ := read_iff_ofJson hvalue
    rw [hdocument] at hfree
    refine ⟨value, hvalue, ?_⟩
    exact (hsame (Option.some.inj hfree) _).1 (toOption_eq_some_iff.1 htext)
  · obtain ⟨value, hvalue, hdefinition⟩ := Option.map_eq_some_iff.1 htwice
    have hvalue := toOption_eq_some_iff.1 hvalue
    refine ⟨⟨value, hvalue, toOption_eq_some_iff.1 hdefinition⟩, ?_⟩
    obtain ⟨document, hdocument, -, -, hrefused⟩ := read_iff_ofJson hvalue
    rw [hdocument] at hcount
    cases document with
    | object members => exact hrefused members rfl .min (Option.some.inj hcount).ge
    | _ => cases hcount

end SchemaScalar.Definition
