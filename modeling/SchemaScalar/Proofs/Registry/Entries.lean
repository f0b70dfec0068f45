import SchemaScalar.Registry

/-!
# Entries of a registry

Registering puts one entry at the end or fails, the latter exactly if the key is taken
(`register_eq`). A definition is registered if it can be built and its key is free
(`define_of_no_fault`); else its fault is told (`define_of_fault`). Where no key is taken twice, a
key finds its own entry (`get?_of_mem`).
-/

namespace SchemaScalar.Registry

/-! ## Looking up -/

theorem contains_iff_mem_keys {registry : Registry} {key : String} :
    registry.contains key = true ↔ key ∈ registry.keys := by
  simp only [contains, get?, keys, List.lookup_isSome_iff, List.mem_map, beq_iff_eq]
  exact ⟨fun ⟨entry, he, hk⟩ => ⟨entry, he, hk.symm⟩, fun ⟨entry, he, hk⟩ => ⟨entry, he, hk.symm⟩⟩

theorem get?_of_not_mem {registry : Registry} {key : String} (h : key ∉ registry.keys) :
    registry.get? key = none := by
  rw [← contains_iff_mem_keys, contains] at h
  exact Option.not_isSome_iff_eq_none.1 h

/-- Where no key is taken twice, a key finds the scalar of its entry. -/
theorem get?_of_mem {registry : Registry} (hn : registry.keys.Nodup) {key : String}
    {scalar : Scalar} (h : (key, scalar) ∈ registry.entries) :
    registry.get? key = some scalar := by
  obtain ⟨before, after, he⟩ := List.append_of_mem h
  refine List.lookup_eq_some_iff.2 ⟨before, after, he, fun entry hb => ?_⟩
  have hk : entry.1 ≠ key := by
    rw [keys, he, List.map_append, List.nodup_append] at hn
    exact hn.2.2 _ (List.mem_map_of_mem hb) _ (by simp)
  simpa using hk.symm

theorem keys_append (registry : Registry) (entries : List (String × Scalar)) :
    keys ⟨registry.entries ++ entries⟩ = registry.keys ++ entries.map Prod.fst :=
  List.map_append

/-! ## Registering -/

theorem register_eq (registry : Registry) (key : String) (scalar : Scalar) :
    registry.register key scalar =
      if key ∈ registry.keys then .error (.duplicateScalar key)
      else .ok ⟨registry.entries ++ [(key, scalar)]⟩ := by
  simp only [register, contains_iff_mem_keys]

/-- Entries whose keys are free and different are all put at the end, in their order. -/
theorem registerAll_eq_ok {registry : Registry} {entries : List (String × Scalar)}
    (hn : (entries.map Prod.fst).Nodup) (hd : ∀ entry ∈ entries, entry.1 ∉ registry.keys) :
    registry.registerAll entries = .ok ⟨registry.entries ++ entries⟩ := by
  induction entries generalizing registry with
  | nil => simp [registerAll, pure, Except.pure]
  | cons entry rest ih =>
    obtain ⟨key, scalar⟩ := entry
    rw [List.map_cons, List.nodup_cons] at hn
    have hkey : key ∉ registry.keys := hd (key, scalar) (by simp)
    have hrest : ∀ e ∈ rest, e.1 ∉ keys ⟨registry.entries ++ [(key, scalar)]⟩ := by
      intro e he hmem
      rw [keys_append, List.mem_append] at hmem
      rcases hmem with hmem | hmem
      · exact hd e (by simp [he]) hmem
      · exact hn.1 (List.mem_singleton.1 hmem ▸ List.mem_map_of_mem he)
    have hih := ih hn.2 hrest
    simp only [registerAll, List.foldlM_cons, register_eq, if_neg hkey, bind, Except.bind] at hih ⊢
    rw [hih, List.append_assoc]
    rfl

/-- The built-in scalars have different keys. -/
theorem builtins_keys_nodup : (Scalar.builtins.map Prod.fst).Nodup := by decide

theorem withBuiltins_empty : withBuiltins empty = .ok builtin :=
  registerAll_eq_ok builtins_keys_nodup fun _ _ => List.not_mem_nil

/-! ## Defining -/

/-- Why a definition cannot be registered where the given keys are taken. A flaw is told before a
key that is taken. -/
def fault? (taken : List String) (definition : Definition) : Option RegistryError :=
  match definition.build with
  | .error flaw => some (.flawedDefinition flaw)
  | .ok _ => if definition.key ∈ taken then some (.duplicateScalar definition.key) else none

theorem define_of_fault {registry : Registry} {definition : Definition} {error : RegistryError}
    (h : fault? registry.keys definition = some error) :
    registry.define definition = .error error := by
  unfold fault? at h
  unfold define
  split at h
  · next hb => cases h; rw [hb]
  · next hb =>
    split at h
    · next hk => cases h; simp only [hb, register_eq, if_pos hk]
    · cases h

theorem define_of_no_fault {registry : Registry} {definition : Definition}
    (h : fault? registry.keys definition = none) :
    ∃ scalar, definition.build = .ok scalar ∧ definition.key ∉ registry.keys ∧
      registry.define definition = .ok ⟨registry.entries ++ [(definition.key, scalar)]⟩ := by
  unfold fault? at h
  unfold define
  split at h
  · cases h
  · next scalar hb =>
    split at h
    · cases h
    · next hk => exact ⟨scalar, hb, hk, by simp only [hb, register_eq, if_neg hk]⟩

theorem fault?_eq_none_iff {taken : List String} {definition : Definition} :
    fault? taken definition = none ↔
      (∃ scalar, definition.build = .ok scalar) ∧ definition.key ∉ taken := by
  unfold fault?
  cases definition.build <;> simp

end SchemaScalar.Registry
