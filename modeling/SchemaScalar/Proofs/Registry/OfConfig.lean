import SchemaScalar.Proofs.Registry.Entries

/-!
# Registries of configurations

The registry of a configuration holds the built-in scalars, if they are wanted, and then one scalar
for each definition, or there is no registry at all and the first definition with a fault is told
(`ofConfig_all_or_nothing`). Both are proved for definitions added to any registry, by induction
along the definitions.
-/

namespace SchemaScalar.Registry

/-! ## Adding definitions one after another -/

/-- What is wrong with the definition at a place of a list, if anything is. The keys of all
definitions before it are taken, besides those taken at the start. -/
def faultAt? (taken : List String) (definitions : List Definition) (i : Nat) :
    Option RegistryError :=
  definitions[i]?.bind fun definition =>
    fault? (taken ++ (definitions.take i).map Definition.key) definition

theorem faultAt?_zero (taken : List String) (definition : Definition) (rest : List Definition) :
    faultAt? taken (definition :: rest) 0 = fault? taken definition := by
  simp [faultAt?]

theorem faultAt?_succ (taken : List String) (definition : Definition) (rest : List Definition)
    (i : Nat) : faultAt? taken (definition :: rest) (i + 1) =
      faultAt? (taken ++ [definition.key]) rest i := by
  simp [faultAt?]

theorem lt_length_of_faultAt? {taken : List String} {definitions : List Definition} {i : Nat}
    {error : RegistryError} (h : faultAt? taken definitions i = some error) :
    i < definitions.length := by
  refine Nat.lt_of_not_le fun hge => ?_
  rw [faultAt?, List.getElem?_eq_none hge] at h
  cases h

/-- Later definitions have no part in what is wrong with a definition. -/
theorem faultAt?_take_append {definitions : List Definition} {i j : Nat} (hj : j ≤ i)
    (hi : i < definitions.length) (taken : List String) (rest : List Definition) :
    faultAt? taken (definitions.take (i + 1) ++ rest) j = faultAt? taken definitions j := by
  have hl : j < (definitions.take (i + 1)).length := by
    rw [List.length_take]
    omega
  have hget : (definitions.take (i + 1) ++ rest)[j]? = definitions[j]? := by
    rw [List.getElem?_append_left hl, List.getElem?_take_of_lt (by omega)]
  have htake : (definitions.take (i + 1) ++ rest).take j = definitions.take j := by
    rw [List.take_append_of_le_length (by omega), List.take_take, Nat.min_eq_left (by omega)]
  simp only [faultAt?, hget, htake]

/-- Where the first place is free of faults, the first fault is the first of the places after it. -/
theorem first_fault_succ {f : Nat → Option RegistryError} (h0 : f 0 = none)
    (error : RegistryError) :
    (∃ i, f i = some error ∧ ∀ j < i, f j = none) ↔
      ∃ i, f (i + 1) = some error ∧ ∀ j < i, f (j + 1) = none := by
  constructor
  · rintro ⟨i, hi, hbefore⟩
    cases i with
    | zero => rw [h0] at hi; cases hi
    | succ i => exact ⟨i, hi, fun j hj => hbefore (j + 1) (by omega)⟩
  · rintro ⟨i, hi, hbefore⟩
    refine ⟨i + 1, hi, fun j hj => ?_⟩
    cases j with
    | zero => exact h0
    | succ j => exact hbefore j (by omega)

/-- The definitions fail with the fault of the first that has one. -/
theorem defineAll_eq_error_iff {start : Registry} {definitions : List Definition}
    {error : RegistryError} :
    definitions.foldlM define start = .error error ↔
      ∃ i, faultAt? start.keys definitions i = some error ∧
        ∀ j < i, faultAt? start.keys definitions j = none := by
  induction definitions generalizing start with
  | nil => simp [faultAt?, pure, Except.pure]
  | cons definition rest ih =>
    rw [List.foldlM_cons]
    cases hf : fault? start.keys definition with
    | some first =>
      rw [define_of_fault hf]
      constructor
      · intro h
        cases h
        exact ⟨0, by rw [faultAt?_zero, hf], fun j hj => absurd hj (Nat.not_lt_zero j)⟩
      · rintro ⟨i, hi, hbefore⟩
        cases i with
        | zero =>
          rw [faultAt?_zero, hf] at hi
          cases hi; rfl
        | succ i =>
          have h0 := hbefore 0 (Nat.succ_pos i)
          rw [faultAt?_zero, hf] at h0
          cases h0
    | none =>
      obtain ⟨scalar, -, -, hd⟩ := define_of_no_fault hf
      have h0 : faultAt? start.keys (definition :: rest) 0 = none := by rw [faultAt?_zero, hf]
      rw [hd, first_fault_succ h0]
      simp only [faultAt?_succ]
      have hih := @ih ⟨start.entries ++ [(definition.key, scalar)]⟩
      rw [keys_append] at hih
      exact hih

/-- All definitions are added if each can be built and no key is taken twice. -/
theorem exists_defineAll_iff {start : Registry} {definitions : List Definition} :
    (∃ result, definitions.foldlM define start = .ok result) ↔
      (∀ definition ∈ definitions, ∃ scalar, definition.build = .ok scalar) ∧
        (definitions.map Definition.key).Nodup ∧
        ∀ definition ∈ definitions, definition.key ∉ start.keys := by
  induction definitions generalizing start with
  | nil => simp [pure, Except.pure]
  | cons definition rest ih =>
    rw [List.foldlM_cons]
    simp only [List.mem_cons, forall_eq_or_imp, List.map_cons, List.nodup_cons, List.mem_map]
    cases hf : fault? start.keys definition with
    | some first =>
      rw [define_of_fault hf]
      constructor
      · rintro ⟨result, h⟩
        cases h
      · rintro ⟨⟨hb, -⟩, -, hk, -⟩
        rw [fault?_eq_none_iff.2 ⟨hb, hk⟩] at hf
        cases hf
    | none =>
      obtain ⟨scalar, hb, hk, hd⟩ := define_of_no_fault hf
      have hih := @ih ⟨start.entries ++ [(definition.key, scalar)]⟩
      rw [keys_append] at hih
      simp only [List.mem_append, List.map_cons, List.map_nil, List.mem_singleton, not_or] at hih
      rw [hd]
      refine hih.trans ⟨fun ⟨hbuild, hn, hfree⟩ => ?_, fun ⟨hbuild, hn, hfree⟩ => ?_⟩
      · exact ⟨⟨⟨scalar, hb⟩, hbuild⟩, ⟨fun ⟨d, hd, he⟩ => (hfree d hd).2 he, hn⟩, hk,
          fun d hd => (hfree d hd).1⟩
      · exact ⟨hbuild.2, hn.2, fun d hd => ⟨hfree.2 d hd, fun he => hn.1 ⟨d, hd, he⟩⟩⟩

/-- Definitions that are added put one entry each at the end, in their order. -/
theorem entries_of_defineAll {start result : Registry} {definitions : List Definition}
    (h : definitions.foldlM define start = .ok result) :
    ∃ made, result = ⟨start.entries ++ made⟩ ∧
      made.map Prod.fst = definitions.map Definition.key ∧
      ∀ definition ∈ definitions, ∃ scalar, definition.build = .ok scalar ∧
        (definition.key, scalar) ∈ made := by
  induction definitions generalizing start with
  | nil =>
    cases h
    exact ⟨[], by simp, rfl, by simp⟩
  | cons definition rest ih =>
    rw [List.foldlM_cons] at h
    cases hf : fault? start.keys definition with
    | some first =>
      rw [define_of_fault hf] at h
      cases h
    | none =>
      obtain ⟨scalar, hb, -, hd⟩ := define_of_no_fault hf
      rw [hd] at h
      obtain ⟨made, rfl, hkeys, hmade⟩ := ih h
      refine ⟨(definition.key, scalar) :: made, by simp, by simp [hkeys], ?_⟩
      rintro d hmem
      rcases List.mem_cons.1 hmem with rfl | hmem
      · exact ⟨scalar, hb, by simp⟩
      · obtain ⟨s, hs, hin⟩ := hmade d hmem
        exact ⟨s, hs, List.mem_cons_of_mem _ hin⟩

/-! ## Configurations -/

/-- The entries that stand before those of the definitions. -/
def firstEntries (config : Config) : List (String × Scalar) :=
  if config.includeBuiltins then Scalar.builtins else []

/-- The keys that are taken before the first definition. -/
def firstKeys (config : Config) : List String := (firstEntries config).map Prod.fst

theorem firstKeys_nodup (config : Config) : (firstKeys config).Nodup := by
  unfold firstKeys firstEntries
  split
  · exact builtins_keys_nodup
  · exact List.nodup_nil

theorem ofConfig_eq (config : Config) :
    ofConfig config = config.scalars.foldlM define ⟨firstEntries config⟩ := by
  unfold ofConfig firstEntries
  split
  · rw [withBuiltins_empty]
    rfl
  · rfl

/-- The entries of a registry that was made from a configuration, and that its keys differ. -/
theorem entries_of_ofConfig {config : Config} {registry : Registry}
    (h : ofConfig config = .ok registry) :
    ∃ made, registry.entries = firstEntries config ++ made ∧
      registry.keys = firstKeys config ++ config.scalars.map Definition.key ∧ registry.keys.Nodup ∧
      ∀ definition ∈ config.scalars, ∃ scalar, definition.build = .ok scalar ∧
        (definition.key, scalar) ∈ made := by
  rw [ofConfig_eq] at h
  obtain ⟨-, hn, hfree⟩ := exists_defineAll_iff.1 ⟨registry, h⟩
  obtain ⟨made, rfl, hkeys, hmade⟩ := entries_of_defineAll h
  have hk : keys ⟨firstEntries config ++ made⟩ =
      firstKeys config ++ config.scalars.map Definition.key := by
    rw [← hkeys]
    exact List.map_append
  refine ⟨made, rfl, hk, ?_, hmade⟩
  rw [hk]
  refine List.nodup_append.2 ⟨firstKeys_nodup config, hn, ?_⟩
  rintro key hkey _ hmem rfl
  obtain ⟨definition, hd, rfl⟩ := List.mem_map.1 hmem
  exact hfree definition hd hkey

/-- **The registry of a configuration holds what the configuration says, or there is none.**

* There is one exactly if every definition can be built, no two have one key, and none has the key
  of a built-in scalar where those are wanted.
* Its keys are those of the built-in scalars, if wanted, and then those of the definitions in their
  order, all different; each finds the built-in scalar or what the definition describes, and no
  other key finds anything.
* If there is none, the error is the fault of the first definition that has one, a flaw before a key
  that is taken, and it stays the same whatever definitions follow. -/
theorem ofConfig_all_or_nothing (config : Config) :
    ((∃ registry, ofConfig config = .ok registry) ↔
      (∀ definition ∈ config.scalars, ∃ scalar, definition.build = .ok scalar) ∧
        (config.scalars.map Definition.key).Nodup ∧
        (config.includeBuiltins = true →
          ∀ definition ∈ config.scalars, definition.key ∉ Scalar.builtins.map Prod.fst)) ∧
    (∀ registry, ofConfig config = .ok registry →
      registry.keys = (if config.includeBuiltins then Scalar.builtins.map Prod.fst else []) ++
        config.scalars.map Definition.key ∧
      registry.keys.Nodup ∧
      (config.includeBuiltins = true →
        ∀ key scalar, (key, scalar) ∈ Scalar.builtins → registry.get? key = some scalar) ∧
      (∀ definition ∈ config.scalars, ∃ scalar, definition.build = .ok scalar ∧
        registry.get? definition.key = some scalar) ∧
      ∀ key, key ∉ registry.keys → registry.get? key = none) ∧
    (∀ error, ofConfig config = .error error ↔
      ∃ i, faultAt? (firstKeys config) config.scalars i = some error ∧
        ∀ j < i, faultAt? (firstKeys config) config.scalars j = none) ∧
    (∀ i error, faultAt? (firstKeys config) config.scalars i = some error →
      (∀ j < i, faultAt? (firstKeys config) config.scalars j = none) →
        ∀ rest, ofConfig { config with scalars := config.scalars.take (i + 1) ++ rest } =
          .error error) := by
  refine ⟨?_, ?_, ?_, ?_⟩
  · rw [ofConfig_eq, exists_defineAll_iff]
    have hfree : (∀ d ∈ config.scalars, d.key ∉ keys ⟨firstEntries config⟩) ↔
        (config.includeBuiltins = true →
          ∀ d ∈ config.scalars, d.key ∉ Scalar.builtins.map Prod.fst) := by
      cases hi : config.includeBuiltins <;> simp [keys, firstEntries, hi]
    rw [hfree]
  · intro registry h
    obtain ⟨made, hentries, hkeys, hn, hmade⟩ := entries_of_ofConfig h
    refine ⟨?_, hn, ?_, ?_, ?_⟩
    · rw [hkeys, firstKeys, firstEntries]
      split <;> rfl
    · intro hi key scalar hmem
      apply get?_of_mem hn
      rw [hentries, firstEntries, if_pos hi]
      exact List.mem_append_left _ hmem
    · intro definition hd
      obtain ⟨scalar, hb, hmem⟩ := hmade definition hd
      refine ⟨scalar, hb, get?_of_mem hn ?_⟩
      rw [hentries]
      exact List.mem_append_right _ hmem
    · intro key hk
      exact get?_of_not_mem hk
  · intro error
    rw [ofConfig_eq]
    exact defineAll_eq_error_iff
  · intro i error hi hbefore rest
    have hl := lt_length_of_faultAt? hi
    -- the same first fault stands in the other list, at the same place
    rw [ofConfig_eq, defineAll_eq_error_iff]
    refine ⟨i, ?_, ?_⟩
    · exact (faultAt?_take_append (Nat.le_refl i) hl _ rest).trans hi
    · intro j hj
      exact (faultAt?_take_append (Nat.le_of_lt hj) hl _ rest).trans (hbefore j hj)

/-- A port makes a registry, where it comes after the eleven built-in scalars. A second definition
that is flawed and whose key is taken makes none: the flaw is told, whatever comes after it. -/
theorem ofConfig_all_or_nothing_port :
    let port : Definition := ⟨"Port", .int, none, none, some 1, some 65535⟩
    let inverted : Definition := ⟨"Int", .int, none, none, some 10, some 1⟩
    (∃ registry, ofConfig ⟨true, [port]⟩ = .ok registry ∧
      registry.keys = ["Boolean", "String", "ID", "NonEmptyString", "Int", "PositiveInt",
        "NonNegativeInt", "NegativeInt", "NonPositiveInt", "Float", "Date", "Port"]) ∧
    ∀ rest, ofConfig ⟨true, port :: inverted :: rest⟩ =
      .error (.flawedDefinition (.invertedBounds "Int" 10 1)) := by
  intro port inverted
  constructor
  · obtain ⟨hok, hentries, -⟩ := ofConfig_all_or_nothing ⟨true, [port]⟩
    have hbuild : ∃ scalar, port.build = .ok scalar := ⟨_, rfl⟩
    have hfree : port.key ∉ Scalar.builtins.map Prod.fst := by decide
    obtain ⟨registry, h⟩ := hok.2 ⟨by simpa using hbuild, by simp, fun _ => by simpa using hfree⟩
    exact ⟨registry, h, (hentries registry h).1⟩
  · intro rest
    obtain ⟨-, -, -, herror⟩ := ofConfig_all_or_nothing ⟨true, [port, inverted]⟩
    refine herror 1 _ rfl (fun j hj => ?_) rest
    obtain rfl : j = 0 := by omega
    rfl

end SchemaScalar.Registry
