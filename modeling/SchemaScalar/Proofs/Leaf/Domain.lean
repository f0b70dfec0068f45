import SchemaScalar.Proofs.Descriptor.Tower

/-!
# What leaves convert

Acceptance tells inputs by their shape, conversion reads them, and neither asks the other. Still a
leaf converts what it accepts and nothing else (`converts_iff_accepts`), with two exceptions:
doubles are made of integers too, and the leaf of any value converts even `null`. An input that is
not converted is refused in one way for each kind of leaf (`refuses_of_sanitize`).
-/

namespace SchemaScalar

namespace Leaf

/-! ## Which inputs are converted -/

/-- Whether an input has an internal value, validated or not. -/
def Converts (leaf : Leaf) (input : Json) : Prop := ∃ value, leaf.sanitize input = .ok value

theorem converts_of_accepts {leaf : Leaf} {input : Json} (h : leaf.accepts input = true) :
    leaf.Converts input := by
  obtain ⟨value, hs, -⟩ := sanitize_of_accepts h
  exact ⟨value, hs⟩

theorem accepts_of_converts {leaf : Leaf} {input : Json} (hf : leaf ≠ .float) (hl : leaf ≠ .loose)
    (h : leaf.Converts input) : leaf.accepts input = true := by
  obtain ⟨value, h⟩ := h
  cases leaf with
  | boolean =>
    cases input with
    | bool _ => rfl
    | _ => cases h
  | string =>
    cases input with
    | string _ => rfl
    | _ => cases h
  | id =>
    cases input with
    | string _ => rfl
    | _ => cases h
  | int =>
    cases input with
    | number number =>
      change number.toInt64.mapError _ = .ok value at h
      show number.toInt64?.isSome = true
      -- the two readings of a number as an integer are defined apart
      cases hn : number.toInt64 with
      | ok n =>
        rw [Json.Number.toInt64_eq_ok_iff.1 hn]
        rfl
      | error complaint =>
        rw [hn] at h
        cases h
    | _ => cases h
  | date =>
    cases input with
    | string s =>
      change readDate s = .ok value at h
      show (readDate s).isOk = true
      rw [h]
      rfl
    | _ => cases h
  | float => exact absurd rfl hf
  | loose => exact absurd rfl hl

/-- **A leaf converts exactly what it accepts**, if it is neither that of doubles nor that of any
value. -/
theorem converts_iff_accepts {leaf : Leaf} (hf : leaf ≠ .float) (hl : leaf ≠ .loose)
    (input : Json) : leaf.Converts input ↔ leaf.accepts input = true :=
  ⟨accepts_of_converts hf hl, converts_of_accepts⟩

/-- The leaf of doubles accepts no integers. -/
theorem accepts_float_iff {input : Json} :
    float.accepts input = true ↔ ∃ x, input = .number (.float x) := by
  constructor
  · intro h
    cases input with
    | number number =>
      cases number with
      | float x => exact ⟨x, rfl⟩
      | integer _ _ _ => cases h
    | _ => cases h
  · rintro ⟨x, rfl⟩
    rfl

/-- Doubles are made of all numbers, and of nothing else. -/
theorem converts_float_iff {input : Json} :
    float.Converts input ↔ ∃ number, input = .number number := by
  constructor
  · rintro ⟨value, h⟩
    cases input with
    | number number => exact ⟨number, rfl⟩
    | _ => cases h
  · rintro ⟨number, rfl⟩
    exact ⟨number.toBinary64, rfl⟩

/-! ## How the others are refused -/

/-- The errors with which a leaf may refuse to convert an input: a date is not of the right kind, or
not readable, or out of range, and every other leaf has the complaint of its decoder. -/
def Refuses : Leaf → Json → ConversionError → Prop
  | date, .string s, error =>
    (∃ problem, error = .invalidDate s problem) ∨ error = .dateOutOfRange s
  | date, input, error => error = .typeMismatch "Date" "string" input.kindName
  | leaf, _, error => ∃ complaint, error = .notConvertible leaf.name complaint

theorem exists_of_mapError {ε ε' α : Type} {f : ε → ε'} {result : Except ε α} {error : ε'}
    (h : result.mapError f = .error error) : ∃ cause, error = f cause := by
  cases result with
  | ok value => cases h
  | error cause => exact ⟨cause, (Except.error.inj h).symm⟩

theorem readDate_error {s : String} {error : ConversionError} (h : readDate s = .error error) :
    (∃ problem, error = .invalidDate s problem) ∨ error = .dateOutOfRange s := by
  unfold readDate at h
  split at h
  · cases h
  · next refusal _ =>
    cases h
    cases refusal with
    | unreadable problem => exact .inl ⟨problem, rfl⟩
    | yearOutOfRange => exact .inr rfl

theorem refuses_of_sanitize {leaf : Leaf} {input : Json} {error : ConversionError}
    (h : leaf.sanitize input = .error error) : leaf.Refuses input error := by
  cases leaf with
  | boolean => exact exists_of_mapError h
  | string => exact exists_of_mapError h
  | id => exact exists_of_mapError h
  | int => exact exists_of_mapError h
  | float =>
    cases input with
    | number number => cases h
    | _ =>
      cases h
      exact ⟨_, rfl⟩
  | date =>
    cases input with
    | string s => exact readDate_error h
    | _ => exact (Except.error.inj h).symm
  | loose => cases h

end Leaf

/-! ## Bare leaves -/

namespace Descriptor

theorem isSuccess_validate_bare {leaf : Leaf} {description key : String} {input : Json} :
    ((bare description : Descriptor leaf).validate key input).isSuccess = true ↔
      leaf.accepts input = true := by
  rw [isSuccess_validate_iff]
  simp [bounds]

/-- **Validation and conversion have one domain**, whether or not the input was validated. A bare
leaf converts an input exactly if it accepts it, under any key. The exceptions are doubles, made of
all numbers where only those written with a fraction or an exponent are accepted, and the leaf of
any value, which converts all of them. An input that is not converted is refused with an error that
names its kind for a date that is no text, cites the text for any other date, and else names the
leaf. -/
theorem bare_converts (leaf : Leaf) (description key : String) (input : Json) :
    let leafOnly : Descriptor leaf := .bare description
    (leaf ≠ .float → leaf ≠ .loose →
      ((∃ value, leafOnly.sanitize input = .ok value) ↔
        (leafOnly.validate key input).isSuccess = true)) ∧
    (leaf = .float →
      ((∃ value, leafOnly.sanitize input = .ok value) ↔ ∃ number, input = .number number) ∧
      ((leafOnly.validate key input).isSuccess = true ↔ ∃ x, input = .number (.float x)) ∧
      ∃ other, (∃ value, leafOnly.sanitize other = .ok value) ∧
        (leafOnly.validate key other).isSuccess = false) ∧
    (leaf = .loose → ∃ value, leafOnly.sanitize input = .ok value) ∧
    (∀ error, leafOnly.sanitize input = .error error → leaf.Refuses input error) := by
  intro leafOnly
  refine ⟨?_, ?_, ?_, ?_⟩
  · intro hf hl
    rw [isSuccess_validate_bare]
    exact Leaf.converts_iff_accepts hf hl input
  · rintro rfl
    refine ⟨Leaf.converts_float_iff, ?_, .int 0, ⟨_, rfl⟩, rfl⟩
    rw [isSuccess_validate_bare]
    exact Leaf.accepts_float_iff
  · rintro rfl
    exact ⟨input, rfl⟩
  · intro error h
    exact Leaf.refuses_of_sanitize h

/-- One more than the largest integer of 64 bits with a sign is no integer to either side, and is
refused by name; an integer is no double to one side only. -/
theorem bare_converts_edges :
    let large : Json := .number (.integer 0x8000000000000000 (by decide) (by decide))
    let int : Descriptor .int := .bare ""
    let float : Descriptor .float := .bare ""
    (¬ (∃ value, int.sanitize large = .ok value) ∧
      ∃ complaint, int.sanitize large = .error (.notConvertible "Int" complaint)) ∧
    (∃ value, float.sanitize large = .ok value) ∧
      ¬ (float.validate "x" large).isSuccess = true := by
  intro large int float
  obtain ⟨hint, -, -, herror⟩ := bare_converts .int "" "n" large
  obtain ⟨-, hfloat, -, -⟩ := bare_converts .float "" "x" large
  obtain ⟨hconverts, haccepts, -⟩ := hfloat rfl
  have hrefused : ¬ (int.validate "n" large).isSuccess = true := by decide +kernel
  refine ⟨⟨mt (hint (by decide) (by decide)).1 hrefused, ?_⟩, hconverts.2 ⟨_, rfl⟩, ?_⟩
  · cases hs : int.sanitize large with
    | ok value => exact absurd ((hint (by decide) (by decide)).1 ⟨value, hs⟩) hrefused
    | error error =>
      obtain ⟨complaint, rfl⟩ := herror error hs
      exact ⟨complaint, rfl⟩
  · rw [haccepts]
    rintro ⟨x, h⟩
    cases Json.number.inj h

end Descriptor

end SchemaScalar
