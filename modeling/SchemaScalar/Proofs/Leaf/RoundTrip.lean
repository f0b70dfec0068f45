import SchemaScalar.Descriptor
import SchemaScalar.Proofs.Calendar.RoundTrip

/-!
# Leaf values on the wire and in JSON

An internal value goes to the wire and comes back as it was (`deserialize_serialize`), or its wire
form is refused; as JSON it is accepted and read back (`accepts_toJson_iff`, `sanitize_toJson`) if
JSON has a form for it at all. An input that a leaf accepts has an internal value of that kind
(`sanitize_of_accepts`), and its JSON has the measure of the input.
-/

namespace SchemaScalar

open Calendar (Instant Iso8601.parse_text Iso8601.parse_text_outside Iso8601.parse_eq_ok_iff)

/-! ## Numbers -/

namespace Json.Number

theorem toInt64?_ofInt64 (n : Int64) : (ofInt64 n).toInt64? = some n := by
  have hu := Int64.toInt_lt n
  simp only [ofInt64, toInt64?, Int64.ofInt_toInt]
  rw [if_pos (by omega)]

theorem toInt64?_eq_some_iff {number : Number} {n : Int64} :
    number.toInt64? = some n ↔ number = ofInt64 n := by
  constructor
  · intro h
    cases number with
    | float x => simp [toInt64?] at h
    | integer m lower upper =>
      simp only [toInt64?] at h
      split at h
      · next hm =>
        cases h
        have hn : (Int64.ofInt m).toInt = m := Int64.toInt_ofInt_of_le (by omega) (by omega)
        simp only [ofInt64, hn]
      · cases h
  · rintro rfl
    exact toInt64?_ofInt64 n

/-- The two ways to take a number as an integer agree. -/
theorem toInt64_eq_ok_iff {number : Number} {n : Int64} :
    number.toInt64 = .ok n ↔ number.toInt64? = some n := by
  cases number with
  | float x => simp [toInt64, toInt64?]
  | integer m lower upper =>
    simp only [toInt64, toInt64?]
    split <;> simp

end Json.Number

theorem truncateNumber_ofInt64 (n : Int64) : truncateNumber (.ofInt64 n) = .ok n := by
  simp [truncateNumber, Json.Number.toInt64?_ofInt64]

/-! ## Dates -/

theorem readDate_eq_ok_iff {s : String} {instant : Instant} :
    readDate s = .ok instant ↔ Calendar.Iso8601.parse s.toList = .ok instant := by
  unfold readDate
  split <;> simp_all

theorem readDate_text {instant : Instant} (h : instant.HasPlainYear) :
    readDate (String.ofList instant.text) = .ok instant := by
  rw [readDate_eq_ok_iff, String.toList_ofList]
  exact Iso8601.parse_text h

theorem readDate_text_outside {instant : Instant} (h : ¬ instant.HasPlainYear) :
    ∃ error, readDate (String.ofList instant.text) = .error error := by
  obtain ⟨refusal, hr⟩ := Iso8601.parse_text_outside h
  refine ⟨.ofRefusal (String.ofList instant.text) refusal, ?_⟩
  unfold readDate
  rw [String.toList_ofList, hr]

theorem hasPlainYear_of_readDate {s : String} {instant : Instant} (h : readDate s = .ok instant) :
    instant.HasPlainYear :=
  (Iso8601.parse_eq_ok_iff.1 (readDate_eq_ok_iff.1 h)).2.2

namespace Leaf

/-! ## Values that the wire and JSON can carry -/

def toJson (leaf : Leaf) (value : leaf.Value) : Json := leaf.wireJson (leaf.serialize value)

/-- Whether the wire has a form from which the value can be told: all values but dates in years that
do not fit four digits. -/
def OnWire : (leaf : Leaf) → leaf.Value → Prop
  | date, instant => instant.HasPlainYear
  | boolean, _ => True
  | string, _ => True
  | id, _ => True
  | int, _ => True
  | float, _ => True
  | loose, _ => True

/-- Whether JSON has a form from which the value can be told, and that the leaf accepts: there is
none for doubles that are not finite, nor for dates in years that do not fit four digits, and `null`
stands for no value. -/
def InJson : (leaf : Leaf) → leaf.Value → Prop
  | float, x => ∃ y, x = .finite y
  | date, instant => instant.HasPlainYear
  | loose, value => value ≠ .null
  | boolean, _ => True
  | string, _ => True
  | id, _ => True
  | int, _ => True

theorem onWire_of_inJson {leaf : Leaf} {value : leaf.Value} (h : leaf.InJson value) :
    leaf.OnWire value := by
  cases leaf with
  | date => exact h
  | _ => trivial

/-! ## From values to the wire and back -/

/-- **What the wire can carry comes back as it was.** -/
theorem deserialize_serialize {leaf : Leaf} {value : leaf.Value} (h : leaf.OnWire value) :
    leaf.deserialize (leaf.serialize value) = .ok value := by
  cases leaf with
  | date =>
    show readDate (String.ofList (Instant.text value)) = .ok value
    exact readDate_text h
  | int => exact truncateNumber_ofInt64 value
  | _ => rfl

/-- What the wire cannot carry is not taken for another value. -/
theorem deserialize_serialize_error {leaf : Leaf} {value : leaf.Value} (h : ¬ leaf.OnWire value) :
    ∃ error, leaf.deserialize (leaf.serialize value) = .error error := by
  cases leaf with
  | date =>
    show ∃ error, readDate (String.ofList (Instant.text value)) = .error error
    exact readDate_text_outside h
  | _ => exact absurd trivial h

/-! ## From values to JSON and back -/

theorem accepts_null (leaf : Leaf) : leaf.accepts .null = false := by
  cases leaf <;> rfl

theorem sanitize_toJson {leaf : Leaf} {value : leaf.Value} (h : leaf.InJson value) :
    leaf.sanitize (leaf.toJson value) = .ok value := by
  cases leaf with
  | float => obtain ⟨y, rfl⟩ := h; rfl
  | date =>
    show readDate (String.ofList (Instant.text value)) = .ok value
    exact readDate_text h
  | int =>
    have hn := Json.Number.toInt64_eq_ok_iff.2 (Json.Number.toInt64?_ofInt64 value)
    show (Json.Number.ofInt64 value).toInt64.mapError _ = .ok value
    rw [hn]
    rfl
  | _ => rfl

/-- **A leaf accepts the JSON of a value if JSON has a form for it.** -/
theorem accepts_toJson_iff {leaf : Leaf} {value : leaf.Value} :
    leaf.accepts (leaf.toJson value) = true ↔ leaf.InJson value := by
  cases leaf with
  | float =>
    cases value with
    | finite x => exact ⟨fun _ => ⟨x, rfl⟩, fun _ => rfl⟩
    | _ =>
      constructor
      · intro h; cases h
      · rintro ⟨x, h⟩; cases h
  | date =>
    show (readDate (String.ofList (Instant.text value))).isOk = true ↔ Instant.HasPlainYear value
    by_cases hy : Instant.HasPlainYear value
    · simp [readDate_text hy, hy, Except.isOk, Except.toBool]
    · obtain ⟨error, he⟩ := readDate_text_outside hy
      simp [he, hy, Except.isOk, Except.toBool]
  | int =>
    show (Json.Number.ofInt64 value).toInt64?.isSome = true ↔ True
    simp [Json.Number.toInt64?_ofInt64]
  | loose =>
    cases value with
    | null =>
      constructor
      · intro h; cases h
      · intro h; exact absurd rfl h
    | _ =>
      constructor
      · rintro - ⟨⟩
      · intro _; rfl
  | _ => exact ⟨fun _ => trivial, fun _ => rfl⟩

/-! ## From accepted inputs to values -/

/-- The shapes of the inputs that a leaf accepts, by their internal values. All but dates are their
own JSON; a date may be written in many ways. -/
theorem sanitize_of_accepts {leaf : Leaf} {input : Json} (h : leaf.accepts input = true) :
    ∃ value, leaf.sanitize input = .ok value ∧ leaf.InJson value ∧
      (leaf ≠ .date → leaf.toJson value = input) := by
  cases leaf with
  | boolean =>
    cases input with
    | bool b => exact ⟨b, rfl, trivial, fun _ => rfl⟩
    | _ => cases h
  | string =>
    cases input with
    | string s => exact ⟨s, rfl, trivial, fun _ => rfl⟩
    | _ => cases h
  | id =>
    cases input with
    | string s => exact ⟨s, rfl, trivial, fun _ => rfl⟩
    | _ => cases h
  | int =>
    cases input with
    | number number =>
      obtain ⟨n, hn⟩ := Option.isSome_iff_exists.1 h
      refine ⟨n, ?_, trivial, fun _ => ?_⟩
      · show number.toInt64.mapError _ = .ok n
        rw [Json.Number.toInt64_eq_ok_iff.2 hn]
        rfl
      · rw [Json.Number.toInt64?_eq_some_iff.1 hn]
        rfl
    | _ => cases h
  | float =>
    cases input with
    | number number =>
      cases number with
      | float x => exact ⟨.finite x, rfl, ⟨x, rfl⟩, fun _ => rfl⟩
      | integer _ _ _ => cases h
    | _ => cases h
  | date =>
    cases input with
    | string s =>
      change (readDate s).isOk = true at h
      cases hs : readDate s with
      | error error => rw [hs] at h; cases h
      | ok instant => exact ⟨instant, hs, hasPlainYear_of_readDate hs, fun hd => absurd rfl hd⟩
    | _ => cases h
  | loose =>
    refine ⟨input, rfl, ?_, fun _ => rfl⟩
    rintro rfl
    cases h

/-- The JSON of an accepted input has the measure of that input. -/
theorem measure_toJson {leaf : Leaf} {input : Json} {value : leaf.Value}
    (hj : leaf ≠ .date → leaf.toJson value = input) :
    leaf.measure (leaf.toJson value) = leaf.measure input := by
  by_cases hd : leaf = .date
  · subst hd
    have hnone : ∀ json, measure date json = none := fun json => by cases json <;> rfl
    rw [hnone, hnone]
  · rw [hj hd]

end Leaf

/-! ## Bare leaves -/

/-- **Every internal value of a bare leaf goes over the wire and into JSON and comes back as it was,
or is refused there.** The only values that the wire refuses are dates in years that do not fit four
digits; JSON also has nothing for doubles that are not finite. -/
theorem Descriptor.bare_carries_or_refuses (leaf : Leaf) (description key : String)
    (value : leaf.Value) :
    let bare : Descriptor leaf := .bare description
    (leaf.OnWire value → bare.deserialize (bare.serialize value) = .ok value) ∧
    (¬ leaf.OnWire value → ∃ error, bare.deserialize (bare.serialize value) = .error error) ∧
    (leaf.InJson value → bare.validate key (bare.toJson value) = .success (bare.toJson value) ∧
      bare.sanitize (bare.toJson value) = .ok value) ∧
    (¬ leaf.InJson value → bare.validate key (bare.toJson value) = .fail (leaf.refusal key)) := by
  refine ⟨Leaf.deserialize_serialize, Leaf.deserialize_serialize_error, ?_, ?_⟩
  · intro h
    exact ⟨if_pos (Leaf.accepts_toJson_iff.2 h), Leaf.sanitize_toJson h⟩
  · intro h
    exact if_neg (mt Leaf.accepts_toJson_iff.1 h)

/-- Half a second into the leap second at the end of 2016, and the start of the year 10000. -/
theorem Descriptor.bare_carries_leapSecond_refuses_year10000 :
    let bare : Descriptor .date := .bare ""
    let leapSecond : Instant := ⟨1483228799, 1500000000, by decide, by decide, by decide, by decide⟩
    let year10000 : Instant := ⟨253402300800, 0, by decide, by decide, by decide, by decide⟩
    (leapSecond.HasPlainYear ∧ bare.deserialize (bare.serialize leapSecond) = .ok leapSecond ∧
      bare.sanitize (bare.toJson leapSecond) = .ok leapSecond) ∧
    ¬ year10000.HasPlainYear ∧
      (∃ error, bare.deserialize (bare.serialize year10000) = .error error) ∧
      bare.validate "at" (bare.toJson year10000) = .fail (Leaf.date.refusal "at") := by
  intro bare leapSecond year10000
  have hp : leapSecond.HasPlainYear := by decide +kernel
  have ho : ¬ year10000.HasPlainYear := by decide +kernel
  obtain ⟨hwire, -, hjson, -⟩ := bare_carries_or_refuses .date "" "at" leapSecond
  obtain ⟨-, hwire', -, hjson'⟩ := bare_carries_or_refuses .date "" "at" year10000
  exact ⟨⟨hp, hwire hp, (hjson hp).2⟩, ho, hwire' ho, hjson' ho⟩

end SchemaScalar
