import SchemaScalar.Definition
import SchemaScalar.Proofs.Descriptor.Coercion

/-!
# Which definitions are built, and what they make

A definition can have several flaws at once, and `build` tells one of them: `flaws` lists all in the
order in which they are told, each by a condition of its own, and the first is the answer
(`build_of_flaw`). A definition without flaws makes the scalar with its limits, finished with its
name and its description (`build_of_flawless`). Neither has a part in validation, so the scalar
accepts the inputs whose measure lies within the limits (`isSuccess_validate_factory`).
-/

namespace SchemaScalar

open Descriptor (required boundedString boundedInt)
open Magnitude (atMost text)

def Base.leaf : Base → Leaf
  | string => .string
  | int => .int

namespace Definition

/-! ## Flaws -/

/-- Limits the wrong way round. -/
def misordered (definition : Definition) : List Flaw :=
  match definition.min, definition.max with
  | some min, some max => if max < min then [.invertedBounds definition.key min max] else []
  | _, _ => []

/-- The limits below zero, the lower one first. -/
def negatives (definition : Definition) : List Int64 :=
  definition.min.toList.filter (· < 0) ++ definition.max.toList.filter (· < 0)

/-- What the base does not allow: lengths below zero, or a name for an integer. -/
def unfit (definition : Definition) : List Flaw :=
  match definition.base with
  | .string => definition.negatives.map (.negativeLength definition.key)
  | .int => if definition.name.isSome then [.renamedInt definition.key] else []

def unlimited (definition : Definition) : List Flaw :=
  if definition.min.isNone && definition.max.isNone then [.emptyBounds definition.key] else []

/-- Everything that is wrong with a definition, in the order in which it is told. -/
def flaws (definition : Definition) : List Flaw :=
  definition.misordered ++ definition.unfit ++ definition.unlimited

theorem misordered_eq (definition : Definition) :
    definition.misordered =
      definition.inverted?.toList.map fun (min, max) => .invertedBounds definition.key min max := by
  obtain ⟨key, base, name, description, min, max⟩ := definition
  cases min with
  | none => rfl
  | some min =>
    cases max with
    | none => rfl
    | some max =>
      simp only [misordered, inverted?]
      split <;> rfl

/-! ## Limits as bounds -/

section Limits

variable {α : Type} {least greatest : Option α}

/-- A bound made of limits admits what keeps to each of them that is set. -/
theorem admits_bound? [Magnitude α] {bound : Bound α} (h : bound? least greatest = some bound)
    (magnitude : α) :
    bound.admits magnitude = true ↔
      (∀ a ∈ least, atMost a magnitude = true) ∧ ∀ b ∈ greatest, atMost magnitude b = true := by
  cases least <;> cases greatest <;> cases h <;> simp [Bound.admits]

end Limits

def asLength (limit : Int64) : Nat := limit.toInt.toNat

/-- The scalar with the limits of a definition and the name of its base, if there are limits. -/
def factory? (definition : Definition) : Option Scalar :=
  match definition.base, definition.min, definition.max with
  | .string, some min, some max =>
    some ⟨.string, boundedString (.range (asLength min) (asLength max))⟩
  | .string, some min, none => some ⟨.string, boundedString (.min (asLength min))⟩
  | .string, none, some max => some ⟨.string, boundedString (.max (asLength max))⟩
  | .int, some min, some max => some ⟨.int, boundedInt (.range min max)⟩
  | .int, some min, none => some ⟨.int, boundedInt (.min min)⟩
  | .int, none, some max => some ⟨.int, boundedInt (.max max)⟩
  | _, none, none => none

theorem factory?_string {definition : Definition} (hb : definition.base = .string) :
    definition.factory? =
      (bound? (definition.min.map asLength) (definition.max.map asLength)).map
        fun bound => ⟨.string, boundedString bound⟩ := by
  obtain ⟨key, base, name, description, min, max⟩ := definition
  obtain rfl : base = .string := hb
  cases min <;> cases max <;> rfl

theorem factory?_int {definition : Definition} (hb : definition.base = .int) :
    definition.factory? =
      (bound? definition.min definition.max).map fun bound => ⟨.int, boundedInt bound⟩ := by
  obtain ⟨key, base, name, description, min, max⟩ := definition
  obtain rfl : base = .int := hb
  cases min <;> cases max <;> rfl

/-- There is such a scalar unless no limit is set. -/
theorem unlimited_eq (definition : Definition) :
    definition.unlimited =
      if definition.factory?.isNone then [.emptyBounds definition.key] else [] := by
  obtain ⟨key, base, name, description, min, max⟩ := definition
  cases base <;> cases min <;> cases max <;> rfl

/-! ## Building -/

/-- A scalar with the name and the description of a definition, where it has them. -/
def finish (definition : Definition) (scalar : Scalar) : Scalar :=
  ⟨scalar.leaf, definition.describe (definition.rename scalar.descriptor)⟩

/-- A limit on a length goes into the rest of the building as a number, or ends it. -/
theorem length_bind {α : Type} (definition : Definition) (limit : Option Int64)
    (next : Option Nat → Except Flaw α) :
    (definition.length limit >>= next) =
      match limit.toList.filter (· < 0) with
      | n :: _ => .error (.negativeLength definition.key n)
      | [] => next (limit.map asLength) := by
  cases limit with
  | none => rfl
  | some n => by_cases hn : n < 0 <;> simp [length, hn] <;> rfl

/-- What is made of a base once the order of the limits is known to be right. -/
theorem build_of_ordered {definition : Definition} (h : definition.inverted? = none) :
    definition.build =
      match definition.unfit, definition.factory? with
      | flaw :: _, _ => .error flaw
      | [], some factory => .ok (definition.finish factory)
      | [], none => .error (.emptyBounds definition.key) := by
  rw [build, h]
  cases hb : definition.base with
  | string =>
    simp only [buildString, length_bind, unfit, hb, negatives, factory?_string hb]
    cases definition.min.toList.filter (· < 0) with
    | cons n others => rfl
    | nil =>
      cases definition.max.toList.filter (· < 0) with
      | cons n others => rfl
      | nil =>
        cases bound? (definition.min.map asLength) (definition.max.map asLength) <;> rfl
  | int =>
    simp only [buildInt, unfit, hb, factory?_int hb]
    cases hn : definition.name with
    | some name => rfl
    | none =>
      cases bound? definition.min definition.max with
      | none => rfl
      | some bound =>
        have hrename : definition.rename (boundedInt bound) = boundedInt bound := by
          rw [rename, hn]
        have hfinish : definition.finish ⟨.int, boundedInt bound⟩ =
            ⟨.int, definition.describe (boundedInt bound)⟩ := by
          rw [finish, hrename]
        exact congrArg Except.ok hfinish.symm

/-- **The first flaw is told**, whatever others there are. -/
theorem build_of_flaw {definition : Definition} {flaw : Flaw}
    (h : definition.flaws.head? = some flaw) : definition.build = .error flaw := by
  rw [flaws, misordered_eq, unlimited_eq] at h
  cases hi : definition.inverted? with
  | some limits =>
    rw [hi] at h
    rw [build, hi]
    exact congrArg Except.error (Option.some.inj h)
  | none =>
    rw [hi] at h
    rw [build_of_ordered hi]
    cases hu : definition.unfit with
    | cons first others =>
      rw [hu] at h
      exact congrArg Except.error (Option.some.inj h)
    | nil =>
      rw [hu] at h
      cases hf : definition.factory? with
      | some factory =>
        rw [hf] at h
        cases h
      | none =>
        rw [hf] at h
        exact congrArg Except.error (Option.some.inj h)

/-- **A definition without flaws is built**, from the scalar with its limits. -/
theorem build_of_flawless {definition : Definition} (h : definition.flaws = []) :
    ∃ factory, definition.factory? = some factory ∧
      definition.build = .ok (definition.finish factory) := by
  rw [flaws, misordered_eq, unlimited_eq, List.append_eq_nil_iff, List.append_eq_nil_iff] at h
  obtain ⟨⟨hm, hu⟩, hf⟩ := h
  have hi : definition.inverted? = none := by
    cases hi : definition.inverted? with
    | none => rfl
    | some limits =>
      rw [hi] at hm
      cases hm
  cases hfactory : definition.factory? with
  | none =>
    rw [hfactory] at hf
    cases hf
  | some factory => exact ⟨factory, rfl, by rw [build_of_ordered hi, hu, hfactory]⟩

theorem build_eq_error_iff (definition : Definition) (flaw : Flaw) :
    definition.build = .error flaw ↔ definition.flaws.head? = some flaw := by
  refine ⟨fun h => ?_, build_of_flaw⟩
  cases hf : definition.flaws with
  | nil =>
    obtain ⟨factory, -, hb⟩ := build_of_flawless hf
    rw [hb] at h
    cases h
  | cons first others =>
    have hfirst : definition.flaws.head? = some first := by rw [hf, List.head?_cons]
    rw [build_of_flaw hfirst] at h
    cases h
    rfl

/-! ## Names and descriptions -/

section Finish

variable {leaf : Leaf} (definition : Definition) (descriptor : Descriptor leaf)

theorem bounds_rename : (definition.rename descriptor).bounds = descriptor.bounds := by
  unfold rename
  cases definition.name <;> cases descriptor <;> rfl

theorem bounds_describe : (definition.describe descriptor).bounds = descriptor.bounds := by
  unfold describe
  cases definition.description <;> cases descriptor <;> rfl

theorem demandsValue_rename :
    (definition.rename descriptor).demandsValue = descriptor.demandsValue := by
  unfold rename
  cases definition.name <;> cases descriptor <;> rfl

theorem demandsValue_describe :
    (definition.describe descriptor).demandsValue = descriptor.demandsValue := by
  unfold describe
  cases definition.description <;> cases descriptor <;> rfl

end Finish

theorem validate_finish (definition : Definition) (scalar : Scalar) (key : String)
    (input : Json) : (definition.finish scalar).validate key input = scalar.validate key input := by
  obtain ⟨leaf, descriptor⟩ := scalar
  exact Descriptor.validate_congr
    ((bounds_describe definition _).trans (bounds_rename definition descriptor))
    ((demandsValue_describe definition _).trans (demandsValue_rename definition descriptor)) key
    input

theorem coerce_finish (definition : Definition) (scalar : Scalar) (key : String)
    (input : Json) : (definition.finish scalar).coerce key input = scalar.coerce key input :=
  Descriptor.coerce_congr (validate_finish definition scalar key input)

/-- The description of a definition that gives none. It tells the limits, under the name of the base
whatever the definition's own name. -/
def generated (definition : Definition) : String :=
  match definition.base, definition.min, definition.max with
  | .string, some min, some max => "String with length between " ++ text min ++ " and " ++ text max
  | .string, some min, none => "String with minimum length of " ++ text min
  | .string, none, some max => "String with maximum length of " ++ text max
  | .int, some min, some max => "Int between " ++ text min ++ " and " ++ text max
  | .int, some min, none => "Int with minimum of " ++ text min
  | .int, none, some max => "Int with maximum of " ++ text max
  | _, none, none => ""

/-- A limit that is no length is a flaw of a string. -/
theorem nonneg_of_fit {definition : Definition} (hb : definition.base = .string)
    (hu : definition.unfit = []) {n : Int64} (h : n ∈ definition.min ∨ n ∈ definition.max) :
    0 ≤ n.toInt := by
  refine Int.not_lt.1 fun hn => ?_
  have hneg : n < 0 := Int64.lt_iff_toInt_lt.2 hn
  have hmem : n ∈ definition.negatives := by
    simp only [negatives, List.mem_append, List.mem_filter, Option.mem_toList]
    simpa [hneg] using h
  simp only [unfit, hb, List.map_eq_nil_iff] at hu
  rw [hu] at hmem
  cases hmem

theorem text_asLength {n : Int64} (h : 0 ≤ n.toInt) : text (asLength n) = text n := by
  show String.ofList (Text.decimal (asLength n)) = String.ofList (Text.decimal n.toInt)
  rw [asLength, Int.toNat_of_nonneg h]

/-- The scalar with the limits of a definition describes them as the definition would. -/
theorem description_factory {definition : Definition} (hu : definition.unfit = [])
    {factory : Scalar} (h : definition.factory? = some factory) :
    factory.description = definition.generated := by
  have hfit := @nonneg_of_fit definition
  obtain ⟨key, base, name, description, min, max⟩ := definition
  cases base with
  | int => cases min <;> cases max <;> cases h <;> rfl
  | string =>
    have htext : ∀ n, n ∈ min ∨ n ∈ max → text (asLength n) = text n := fun n hn =>
      text_asLength (hfit rfl hu hn)
    cases min with
    | none =>
      cases max with
      | none => cases h
      | some max =>
        cases h
        show "String with maximum length of " ++ text (asLength max) = _
        rw [htext max (.inr rfl)]
        rfl
    | some min =>
      cases max with
      | none =>
        cases h
        show "String with minimum length of " ++ text (asLength min) = _
        rw [htext min (.inl rfl)]
        rfl
      | some max =>
        cases h
        show "String with length between " ++ text (asLength min) ++ " and " ++
          text (asLength max) = _
        rw [htext min (.inl rfl), htext max (.inr rfl)]
        rfl

/-- A scalar made of a definition has its description, or else that of the scalar with its
limits. -/
theorem description_finish {definition : Definition} {factory : Scalar}
    (h : definition.factory? = some factory) :
    (definition.finish factory).description =
      definition.description.getD factory.description := by
  obtain ⟨key, base, name, description, min, max⟩ := definition
  cases base <;> cases min <;> cases max <;> cases h <;> cases name <;> cases description <;> rfl

/-- A scalar made of a definition has its name, or else that of its base; an integer has no name of
its own. -/
theorem name_finish {definition : Definition} (hu : definition.unfit = []) {factory : Scalar}
    (h : definition.factory? = some factory) :
    (definition.finish factory).name = definition.name.getD definition.base.leaf.name := by
  obtain ⟨key, base, name, description, min, max⟩ := definition
  cases base with
  | string => cases min <;> cases max <;> cases h <;> cases name <;> cases description <;> rfl
  | int =>
    cases name with
    | some name => cases hu
    | none => cases min <;> cases max <;> cases h <;> cases description <;> rfl

/-! ## Accepted inputs -/

/-- Whether a measure lies within the limits that are set. -/
def Within (definition : Definition) (measure : Int) : Prop :=
  (∀ min ∈ definition.min, min.toInt ≤ measure) ∧ ∀ max ∈ definition.max, measure ≤ max.toInt

/-- The inputs that a definition means: strings by their count of characters, integers of 64 bits by
their value. -/
def Means (definition : Definition) (input : Json) : Prop :=
  match definition.base with
  | .string => ∃ s : String, input = .string s ∧ definition.Within s.length
  | .int => ∃ n : Int64, input = .int n ∧ definition.Within n.toInt

theorem admits_length_iff {definition : Definition} (hb : definition.base = .string)
    (hu : definition.unfit = []) {bound : Bound Nat}
    (h : bound? (definition.min.map asLength) (definition.max.map asLength) = some bound)
    (length : Nat) : bound.admits length = true ↔ definition.Within length := by
  rw [admits_bound? h, Within]
  simp only [Option.mem_def, Option.map_eq_some_iff, forall_exists_index, and_imp,
    forall_apply_eq_imp_iff₂]
  refine and_congr (forall₂_congr fun n hn => ?_) (forall₂_congr fun n hn => ?_)
  · have hnonneg := nonneg_of_fit hb hu (.inl hn)
    show decide (asLength n ≤ length) = true ↔ _
    rw [decide_eq_true_iff, asLength]
    omega
  · have hnonneg := nonneg_of_fit hb hu (.inr hn)
    show decide (length ≤ asLength n) = true ↔ _
    rw [decide_eq_true_iff, asLength]
    omega

theorem admits_int_iff {definition : Definition} {bound : Bound Int64}
    (h : bound? definition.min definition.max = some bound) (n : Int64) :
    bound.admits n = true ↔ definition.Within n.toInt := by
  rw [admits_bound? h, Within]
  refine and_congr (forall₂_congr fun limit _ => ?_) (forall₂_congr fun limit _ => ?_)
  · exact decide_eq_true_iff.trans Int64.le_iff_toInt_le
  · exact decide_eq_true_iff.trans Int64.le_iff_toInt_le

/-- **The scalar with the limits of a definition accepts what the definition means.** -/
theorem isSuccess_validate_factory {definition : Definition} (hu : definition.unfit = [])
    {factory : Scalar} (h : definition.factory? = some factory) (key : String) (input : Json) :
    (factory.validate key input).isSuccess = true ↔ definition.Means input := by
  cases hb : definition.base with
  | string =>
    rw [factory?_string hb, Option.map_eq_some_iff] at h
    obtain ⟨bound, hbound, rfl⟩ := h
    have hadmits := admits_length_iff hb hu hbound
    refine Descriptor.isSuccess_validate_iff.trans ?_
    simp only [Means, hb]
    constructor
    · rintro ⟨ha, hall⟩
      obtain ⟨length, hm, hl⟩ := hall bound List.mem_cons_self
      cases input with
      | string s =>
        cases hm
        exact ⟨s, rfl, (hadmits _).1 hl⟩
      | _ => cases ha
    · rintro ⟨s, rfl, hs⟩
      refine ⟨rfl, fun b hmem => ?_⟩
      obtain rfl := List.mem_singleton.1 hmem
      exact ⟨s.length, rfl, (hadmits _).2 hs⟩
  | int =>
    rw [factory?_int hb, Option.map_eq_some_iff] at h
    obtain ⟨bound, hbound, rfl⟩ := h
    have hadmits := admits_int_iff hbound
    refine Descriptor.isSuccess_validate_iff.trans ?_
    simp only [Means, hb]
    constructor
    · rintro ⟨ha, hall⟩
      obtain ⟨n, hm, hn⟩ := hall bound List.mem_cons_self
      cases input with
      | number number =>
        change number.toInt64? = some n at hm
        rw [Json.Number.toInt64?_eq_some_iff.1 hm]
        exact ⟨n, rfl, (hadmits n).1 hn⟩
      | _ => cases ha
    · rintro ⟨n, rfl, hn⟩
      have hm : Leaf.int.measure (.int n) = some n := Json.Number.toInt64?_ofInt64 n
      refine ⟨congrArg Option.isSome hm, fun b hmem => ?_⟩
      obtain rfl := List.mem_singleton.1 hmem
      exact ⟨n, hm, (hadmits n).2 hn⟩

/-! ## The decision -/

/-- **Every definition is decided.** It is refused exactly if it has flaws, with the first of them:
limits the wrong way round come before all others; then, for a string, a lower limit below zero and
an upper one, and for an integer a name; and no limit at all comes last. A definition without flaws
is built, and the scalar answers under every key as the one with the same limits and no name of its
own, so that it accepts the strings whose count of characters, or the integers of 64 bits whose
value, lies within the limits. Its name and description are those of the definition; what is not set
is taken from the base, and a generated description names the base whatever the name. -/
theorem build_decides (definition : Definition) :
    (∀ flaw, definition.build = .error flaw ↔ definition.flaws.head? = some flaw) ∧
    (definition.flaws = [] → ∃ scalar factory, definition.build = .ok scalar ∧
      definition.factory? = some factory ∧
      scalar.name = definition.name.getD definition.base.leaf.name ∧
      scalar.description = definition.description.getD definition.generated ∧
      ∀ key input, scalar.validate key input = factory.validate key input ∧
        scalar.coerce key input = factory.coerce key input ∧
        ((scalar.validate key input).isSuccess = true ↔ definition.Means input)) := by
  refine ⟨build_eq_error_iff definition, ?_⟩
  intro h
  obtain ⟨factory, hfactory, hbuild⟩ := build_of_flawless h
  have hu : definition.unfit = [] := by
    rw [flaws, List.append_eq_nil_iff, List.append_eq_nil_iff] at h
    exact h.1.2
  refine ⟨_, factory, hbuild, hfactory, name_finish hu hfactory, ?_, ?_⟩
  · rw [description_finish hfactory, description_factory hu hfactory]
  · intro key input
    rw [validate_finish]
    exact ⟨rfl, coerce_finish definition factory key input,
      isSuccess_validate_factory hu hfactory key input⟩

/-- A named string of three to twenty characters. -/
theorem build_decides_username :
    let definition : Definition := ⟨"Username", .string, some "Username", none, some 3, some 20⟩
    ∃ scalar, definition.build = .ok scalar ∧ scalar.name = "Username" ∧
      scalar.description = "String with length between 3 and 20" ∧
      (scalar.validate "login" (.string "été")).isSuccess = true ∧
      ¬ (scalar.validate "login" (.string "ab")).isSuccess = true := by
  intro definition
  obtain ⟨scalar, factory, hbuild, -, hname, hdescription, hanswers⟩ :=
    (build_decides definition).2 (by decide)
  refine ⟨scalar, hbuild, hname, hdescription.trans (by decide +kernel), ?_, ?_⟩
  · rw [(hanswers _ _).2.2]
    refine ⟨"été", rfl, ?_, ?_⟩
    · rintro _ ⟨⟩
      decide
    · rintro _ ⟨⟩
      decide
  · rw [(hanswers _ _).2.2]
    rintro ⟨s, hs, hlower, -⟩
    obtain rfl := Json.string.inj hs
    exact absurd (hlower 3 rfl) (by decide)

end Definition

end SchemaScalar
