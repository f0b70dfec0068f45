import SchemaScalar.Proofs.Descriptor.Tower

/-!
# Accepted inputs on the wire

An input that a tower accepts has an internal value, which goes to the wire and comes back, and
whose JSON the tower accepts again, bounds included (`exists_value_of_accepted`). So coercion never
fails hard (`exists_coerce`), and what it gives is its own coercion (`coerce_coerced`). Two dates
are coerced to the same text if they are the same instant. Everything but a date is its own JSON, so
over all other leaves coercion is validation (`coerce_of_accepted`).
-/

namespace SchemaScalar.Descriptor

open Calendar (Iso8601.text_inj Iso8601.parse_eq_ok_iff)

variable {leaf : Leaf}

/-! ## The value of an accepted input -/

/-- A tower accepts the JSON of a value of an accepted input, and reads it as that value. -/
theorem validate_toJson {descriptor : Descriptor leaf} {input : Json} {value : leaf.Value}
    (hj : leaf.InJson value) (hm : leaf.measure (leaf.toJson value) = leaf.measure input)
    (hb : ∀ bound ∈ descriptor.bounds, ∃ magnitude, leaf.measure input = some magnitude ∧
      bound.admits magnitude = true) (key : String) :
    descriptor.validate key (leaf.toJson value) = .success (leaf.toJson value) := by
  refine validate_eq_success_iff.2 ⟨rfl, Leaf.accepts_toJson_iff.2 hj, ?_⟩
  rw [hm]
  exact hb

/-- **An accepted input has an internal value that the wire and JSON can carry.** -/
theorem exists_value_of_accepted {descriptor : Descriptor leaf} {key : String} {input : Json}
    (h : (descriptor.validate key input).isSuccess = true) :
    ∃ value, leaf.sanitize input = .ok value ∧ leaf.InJson value ∧
      descriptor.validateAndSanitize key input = .ok (.success value) ∧
      ∀ other, descriptor.validate other (leaf.toJson value) = .success (leaf.toJson value) := by
  obtain ⟨ha, hb⟩ := isSuccess_validate_iff.1 h
  obtain ⟨value, hs, hj, heq⟩ := Leaf.sanitize_of_accepts ha
  refine ⟨value, hs, hj, ?_, validate_toJson hj (Leaf.measure_toJson heq) hb⟩
  rw [validateAndSanitize, validate_eq_success_iff.2 ⟨rfl, ha, hb⟩]
  simp only [sanitize_eq, hs]
  rfl

/-! ## Coercion -/

theorem coerce_of_failure {descriptor : Descriptor leaf} {key : String} {input : Json}
    {messages : Messages} (h : descriptor.validate key input = .failure messages) :
    descriptor.coerce key input = .ok (.failure messages) := by
  rw [coerce, validateAndSanitize, h]
  rfl

theorem coerce_of_value {descriptor : Descriptor leaf} {key : String} {input : Json}
    {value : leaf.Value} (h : descriptor.validateAndSanitize key input = .ok (.success value)) :
    descriptor.coerce key input = .ok (.success (leaf.toJson value)) := by
  rw [coerce, h, toJson_eq]
  rfl

/-- Towers that validate alike coerce alike. -/
theorem coerce_congr {descriptor other : Descriptor leaf} {key : String} {input : Json}
    (h : descriptor.validate key input = other.validate key input) :
    descriptor.coerce key input = other.coerce key input := by
  rw [coerce, coerce, validateAndSanitize, validateAndSanitize, h, sanitize_eq, sanitize_eq,
    toJson_eq, toJson_eq]

/-- **Coercion never fails hard.** -/
theorem exists_coerce (descriptor : Descriptor leaf) (key : String) (input : Json) :
    ∃ outcome, descriptor.coerce key input = .ok outcome := by
  cases hv : descriptor.validate key input with
  | failure messages => exact ⟨_, coerce_of_failure hv⟩
  | success accepted =>
    obtain ⟨value, -, -, hs, -⟩ := exists_value_of_accepted (by rw [hv]; rfl)
    exact ⟨_, coerce_of_value hs⟩

/-- What an input is coerced to is the JSON of its value, and the input was accepted. -/
theorem value_of_coerce {descriptor : Descriptor leaf} {key : String} {input output : Json}
    (h : descriptor.coerce key input = .ok (.success output)) :
    ∃ value, leaf.sanitize input = .ok value ∧ leaf.InJson value ∧ output = leaf.toJson value ∧
      ∀ other, descriptor.validate other output = .success output := by
  cases hv : descriptor.validate key input with
  | failure messages =>
    rw [coerce_of_failure hv] at h
    cases h
  | success accepted =>
    obtain ⟨value, hs, hj, hvs, hw⟩ := exists_value_of_accepted (by rw [hv]; rfl)
    rw [coerce_of_value hvs] at h
    cases h
    exact ⟨value, hs, hj, rfl, hw⟩

/-- **Coercion changes nothing that it made.** -/
theorem coerce_coerced {descriptor : Descriptor leaf} {key : String} {input output : Json}
    (h : descriptor.coerce key input = .ok (.success output)) (other : String) :
    descriptor.coerce other output = .ok (.success output) := by
  obtain ⟨value, -, hj, rfl, hw⟩ := value_of_coerce h
  refine coerce_of_value ?_
  rw [validateAndSanitize, hw other]
  simp only [sanitize_eq, Leaf.sanitize_toJson hj]
  rfl

/-! ## Everything but dates -/

/-- An input that a tower over anything but dates accepts is the JSON of its own value. -/
theorem coerce_of_accepted (hd : leaf ≠ .date) {descriptor : Descriptor leaf} {key : String}
    {input : Json} (h : (descriptor.validate key input).isSuccess = true) :
    descriptor.coerce key input = .ok (.success input) := by
  obtain ⟨value, hs, -, hvs, -⟩ := exists_value_of_accepted h
  obtain ⟨other, hs', -, hj⟩ := Leaf.sanitize_of_accepts (isSuccess_validate_iff.1 h).1
  obtain rfl : value = other := Except.ok.inj (hs.symm.trans hs')
  rw [coerce_of_value hvs, hj hd]

/-- **On everything but dates, coercion is validation**: it refuses with the same message, which is
a single one, and what it lets through is the input as it was written, down to the shape of numbers,
the sign of zero, and the arrays and objects inside. -/
theorem coerce_eq_validate (hd : leaf ≠ .date) (descriptor : Descriptor leaf) (key : String)
    (input : Json) :
    descriptor.coerce key input = .ok (descriptor.validate key input) ∧
    (∀ messages, descriptor.coerce key input = .ok (.failure messages) → messages.size = 1) ∧
    (∀ output, descriptor.coerce key input = .ok (.success output) → output = input) := by
  have heq : descriptor.coerce key input = .ok (descriptor.validate key input) := by
    cases hv : descriptor.validate key input with
    | failure messages => exact coerce_of_failure hv
    | success accepted =>
      obtain rfl : accepted = input := (validate_eq_success_iff.1 hv).1
      exact coerce_of_accepted hd (by rw [hv]; rfl)
  refine ⟨heq, ?_, ?_⟩
  · intro messages h
    rw [heq, Except.ok.injEq] at h
    exact size_of_validate_failure h
  · intro output h
    rw [heq, Except.ok.injEq] at h
    exact (validate_eq_success_iff.1 h).1

/-- A tower over integers refuses `3.0` in the words of its leaf, and one over any values lets a
negative zero through inside an object inside an array. -/
theorem coerce_eq_validate_zero :
    let port : Descriptor .int := (nonNull (plain .int)).refine (.range 1 65535)
    let any : Descriptor .loose := nonNull (plain .loose)
    let three : Binary64.Finite := ⟨false, 4613937818241073152, by decide⟩
    let nested : Json := .array [.object [("zero", .number (.float (.zero true)))], .int 0]
    port.coerce "port" (.number (.float three)) =
      .ok (.fail "Expected \"port\" to be an integer.") ∧
    any.coerce "any" nested = .ok (.success nested) := by
  intro port any three nested
  constructor
  · have hv : port.validate "port" (.number (.float three)) =
        .fail "Expected \"port\" to be an integer." := rfl
    rw [← hv]
    exact (coerce_eq_validate (by decide) port "port" _).1
  · have hv : any.validate "any" nested = .success nested := rfl
    rw [← hv]
    exact (coerce_eq_validate (by decide) any "any" nested).1

/-! ## Dates -/

/-- An accepted date is a text that denotes an instant, and it is coerced to the text of that
instant. -/
theorem coerce_date {descriptor : Descriptor .date} {key : String} {input : Json}
    (h : (descriptor.validate key input).isSuccess = true) :
    ∃ s instant, input = .string s ∧ Calendar.Iso8601.instant s.toList = .ok instant ∧
      instant.HasPlainYear ∧
      descriptor.coerce key input = .ok (.success (.string (String.ofList instant.text))) := by
  obtain ⟨value, hs, hj, hvs, -⟩ := exists_value_of_accepted h
  cases input with
  | string s =>
    have hp := (Iso8601.parse_eq_ok_iff.1 (readDate_eq_ok_iff.1 hs)).1
    exact ⟨s, value, rfl, hp, hj, coerce_of_value hvs⟩
  | _ => cases hs

/-- **Accepted inputs survive the wire**, for every tower, all keys and every input. An accepted
input has an internal value, which the wire gives back, and whose JSON the tower accepts under any
key and reads as that value. So coercion has a result for every input, a coerced input is coerced to
itself, and two accepted dates are coerced to one text exactly if they denote one instant. -/
theorem accepted_survives_wire (descriptor : Descriptor leaf) (key other : String) (input : Json) :
    ((descriptor.validate key input).isSuccess = true →
      ∃ value, descriptor.validateAndSanitize key input = .ok (.success value) ∧
        descriptor.deserialize (descriptor.serialize value) = .ok value ∧
        descriptor.validate other (descriptor.toJson value) = .success (descriptor.toJson value) ∧
        descriptor.sanitize (descriptor.toJson value) = .ok value) ∧
    (∃ outcome, descriptor.coerce key input = .ok outcome) ∧
    (∀ output, descriptor.coerce key input = .ok (.success output) →
      descriptor.coerce other output = .ok (.success output)) ∧
    (∀ (first second : Descriptor .date) (x y : Json), (first.validate key x).isSuccess = true →
      (second.validate other y).isSuccess = true →
        ∃ s t i j v w, x = .string s ∧ y = .string t ∧
          Calendar.Iso8601.instant s.toList = .ok i ∧ Calendar.Iso8601.instant t.toList = .ok j ∧
          first.coerce key x = .ok (.success (.string v)) ∧
          second.coerce other y = .ok (.success (.string w)) ∧ (v = w ↔ i = j)) := by
  refine ⟨?_, exists_coerce descriptor key input, ?_, ?_⟩
  · intro h
    obtain ⟨value, -, hj, hvs, hw⟩ := exists_value_of_accepted h
    rw [deserialize_eq, serialize_eq, toJson_eq, sanitize_eq]
    exact ⟨value, hvs, Leaf.deserialize_serialize (Leaf.onWire_of_inJson hj), hw other,
      Leaf.sanitize_toJson hj⟩
  · intro output h
    exact coerce_coerced h other
  · intro first second x y hx hy
    obtain ⟨s, i, rfl, hs, hi, hsw⟩ := coerce_date hx
    obtain ⟨t, j, rfl, ht, hj, htw⟩ := coerce_date hy
    exact ⟨s, t, i, j, _, _, rfl, rfl, hs, ht, hsw, htw,
      String.ofList_inj.trans (Iso8601.text_inj hi hj)⟩

/-- The leap second at the end of 2016, written in UTC and five and a half hours ahead of it: both
texts are accepted, keep the leap second on the wire, and are coerced to one text. -/
theorem accepted_survives_wire_leapSecond :
    let date : Descriptor .date := .nonNull (plain .date)
    let utc : Json := .string "2016-12-31T23:59:60.5Z"
    let ahead : Json := .string "2017-01-01 05:29:60.500+0530"
    ((date.validate "at" utc).isSuccess = true ∧ (date.validate "on" ahead).isSuccess = true) ∧
    (∃ value, date.validateAndSanitize "at" utc = .ok (.success value) ∧
      date.deserialize (date.serialize value) = .ok value) ∧
    (∃ v w, date.coerce "at" utc = .ok (.success (.string v)) ∧
      date.coerce "on" ahead = .ok (.success (.string w)) ∧ v = w) := by
  intro date utc ahead
  have hu : (date.validate "at" utc).isSuccess = true := by decide +kernel
  have ha : (date.validate "on" ahead).isSuccess = true := by decide +kernel
  obtain ⟨hvalue, -, -, hdates⟩ := accepted_survives_wire date "at" "on" utc
  obtain ⟨value, hs, hd, -⟩ := hvalue hu
  obtain ⟨s, t, i, j, v, w, hx, hy, hi, hj, hv, hw, hvw⟩ := hdates date date utc ahead hu ha
  have hsame : (Calendar.Iso8601.instant "2016-12-31T23:59:60.5Z".toList).toOption =
      (Calendar.Iso8601.instant "2017-01-01 05:29:60.500+0530".toList).toOption := by decide +kernel
  obtain rfl : "2016-12-31T23:59:60.5Z" = s := Json.string.inj hx
  obtain rfl : "2017-01-01 05:29:60.500+0530" = t := Json.string.inj hy
  rw [hi, hj] at hsame
  exact ⟨⟨hu, ha⟩, ⟨value, hs, hd⟩, v, w, hv, hw, hvw.2 (Option.some.inj hsame)⟩

end SchemaScalar.Descriptor
