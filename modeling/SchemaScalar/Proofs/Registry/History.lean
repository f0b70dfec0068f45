import Mathlib.Data.List.Nodup
import SchemaScalar.Proofs.Registry.Entries

/-!
# Histories of a registry

A registry is built by calls, one after another, from the empty one. What one call does depends on
the keys that are taken and on nothing else: it puts its own entries at the end, or it fails and
says why (`Call.run_eq`). So the entries of what a run of calls builds are the entries of the calls,
in their order, under keys that all differ (`entries_of_runFrom`, `nodup_of_runFrom`), and every
look-up goes back to the one call that registered the key (`built_from_history`).
-/

namespace SchemaScalar.Registry

/-! ## Calls -/

/-- A call to a registry that is being built. A scalar is given away or shared with other keys. -/
inductive Call where
  | register (key : String) (scalar : Scalar)
  | registerShared (key : String) (scalar : Scalar)
  | define (definition : Definition)
  | withBuiltins

namespace Call

/-- What a call makes of a registry. An entry holds its scalar by value, so sharing leaves no mark
on it. -/
def run (registry : Registry) : Call → Except RegistryError Registry
  | register key scalar => registry.register key scalar
  | registerShared key scalar => registry.register key scalar
  | define definition => registry.define definition
  | withBuiltins => registry.withBuiltins

/-- The entries that a call is there to add. -/
def entries : Call → List (String × Scalar)
  | register key scalar => [(key, scalar)]
  | registerShared key scalar => [(key, scalar)]
  | define definition =>
    match definition.build with
    | .ok scalar => [(definition.key, scalar)]
    | .error _ => []
  | withBuiltins => Scalar.builtins

/-- The keys that a call is there to take. -/
def keys (call : Call) : List String := call.entries.map Prod.fst

/-- Why a call fails where the given keys are taken. Of several built-in scalars whose keys are
taken, the first is named. -/
def fault? (taken : List String) : Call → Option RegistryError
  | register key _ => if key ∈ taken then some (.duplicateScalar key) else none
  | registerShared key _ => if key ∈ taken then some (.duplicateScalar key) else none
  | define definition => Registry.fault? taken definition
  | withBuiltins =>
    (Scalar.builtins.find? fun entry => entry.1 ∈ taken).map fun entry => .duplicateScalar entry.1

end Call

/-! ## One call -/

/-- Entries with different keys are all added, or the first whose key is taken is named. -/
theorem registerAll_eq {entries : List (String × Scalar)} (hn : (entries.map Prod.fst).Nodup)
    (registry : Registry) :
    registry.registerAll entries =
      match entries.find? fun entry => entry.1 ∈ registry.keys with
      | some entry => .error (.duplicateScalar entry.1)
      | none => .ok ⟨registry.entries ++ entries⟩ := by
  cases hf : entries.find? fun entry => entry.1 ∈ registry.keys with
  | none =>
    exact registerAll_eq_ok hn fun entry he => by simpa using List.find?_eq_none.1 hf entry he
  | some taken =>
    obtain ⟨hk, before, after, rfl, hbefore⟩ := List.find?_eq_some_iff_append.1 hf
    -- those before the first taken one are added, and do not free its key
    have hb : registry.registerAll before = .ok ⟨registry.entries ++ before⟩ :=
      registerAll_eq_ok (by rw [List.map_append] at hn; exact hn.of_append_left)
        fun entry he => by simpa using hbefore entry he
    have hmem : taken.1 ∈ Registry.keys ⟨registry.entries ++ before⟩ := by
      rw [keys_append]
      exact List.mem_append_left _ (of_decide_eq_true hk)
    rw [registerAll] at hb ⊢
    rw [List.foldlM_append, hb]
    simp only [List.foldlM_cons, bind, Except.bind, register_eq, if_pos hmem]

/-- **What a call does**: it fails where the taken keys stand against it, else its own entries come
after all others, which stay as they are. -/
theorem Call.run_eq (call : Call) (registry : Registry) :
    call.run registry =
      match call.fault? registry.keys with
      | some error => .error error
      | none => .ok ⟨registry.entries ++ call.entries⟩ := by
  cases call with
  | register key scalar | registerShared key scalar =>
    simp only [run, register_eq, fault?, entries]
    split <;> rfl
  | define definition =>
    simp only [run, fault?]
    cases hf : Registry.fault? registry.keys definition with
    | some error => exact define_of_fault hf
    | none =>
      obtain ⟨scalar, hb, -, hd⟩ := define_of_no_fault hf
      simp only [hd, entries, hb]
  | withBuiltins =>
    simp only [run, Registry.withBuiltins, registerAll_eq builtins_keys_nodup, fault?, entries]
    split <;> rename_i hf <;> simp [hf]

theorem Call.run_eq_error_iff {call : Call} {registry : Registry} {error : RegistryError} :
    call.run registry = .error error ↔ call.fault? registry.keys = some error := by
  rw [run_eq]
  split <;> simp_all

/-- A single key is refused exactly if it is taken, and is named. -/
theorem fault_of_key_iff {taken : List String} {key : String} {error : RegistryError} :
    (if key ∈ taken then some (RegistryError.duplicateScalar key) else none) = some error ↔
      key ∈ taken ∧ error = .duplicateScalar key := by
  split <;> simp_all [eq_comm]

/-- A definition is refused for its flaw, or if it has none and its key is taken. -/
theorem fault?_eq_some_iff {taken : List String} {definition : Definition}
    {error : RegistryError} :
    fault? taken definition = some error ↔
      (∃ flaw, definition.build = .error flaw ∧ error = .flawedDefinition flaw) ∨
      (∃ scalar, definition.build = .ok scalar) ∧ definition.key ∈ taken ∧
        error = .duplicateScalar definition.key := by
  unfold fault?
  cases definition.build with
  | error flaw => simp [eq_comm]
  | ok scalar => simpa using fault_of_key_iff

/-- Of the built-in scalars the first is named whose key is taken. -/
theorem Call.fault?_withBuiltins_eq_some_iff {taken : List String} {error : RegistryError} :
    withBuiltins.fault? taken = some error ↔
      ∃ before entry after, Scalar.builtins = before ++ entry :: after ∧
        (∀ e ∈ before, e.1 ∉ taken) ∧ entry.1 ∈ taken ∧ error = .duplicateScalar entry.1 := by
  simp only [fault?, Option.map_eq_some_iff, List.find?_eq_some_iff_append]
  constructor
  · rintro ⟨entry, ⟨hk, before, after, hb, hbefore⟩, rfl⟩
    exact ⟨before, entry, after, hb, by simpa using hbefore, of_decide_eq_true hk, rfl⟩
  · rintro ⟨before, entry, after, hb, hbefore, hk, rfl⟩
    exact ⟨entry, ⟨decide_eq_true hk, before, after, hb, by simpa using hbefore⟩, rfl⟩

/-! ## Runs of calls -/

/-- What calls make of a registry, one after another; the first that fails ends the run. -/
def runFrom (registry : Registry) (calls : List Call) : Except RegistryError Registry :=
  calls.foldlM Call.run registry

/-- What calls build from nothing. -/
def runAll (calls : List Call) : Except RegistryError Registry := runFrom empty calls

theorem runFrom_cons (registry : Registry) (call : Call) (rest : List Call) :
    runFrom registry (call :: rest) =
      match call.fault? registry.keys with
      | some error => .error error
      | none => runFrom ⟨registry.entries ++ call.entries⟩ rest := by
  rw [runFrom, List.foldlM_cons, call.run_eq]
  split <;> rfl

/-- A run that succeeds leaves the entries of its calls in their order after those of the start. -/
theorem entries_of_runFrom {start registry : Registry} {calls : List Call}
    (h : runFrom start calls = .ok registry) :
    registry.entries = start.entries ++ calls.flatMap Call.entries := by
  induction calls generalizing start with
  | nil =>
    cases h
    simp
  | cons call rest ih =>
    rw [runFrom_cons] at h
    split at h
    · cases h
    · rw [ih h, List.append_assoc, List.flatMap_cons]

/-- A run fails with the fault of its first call that has one, all calls before it being done. -/
theorem runFrom_eq_error_iff {start : Registry} {calls : List Call} {error : RegistryError} :
    runFrom start calls = .error error ↔
      ∃ before call after, calls = before ++ call :: after ∧
        ∃ registry, runFrom start before = .ok registry ∧
          call.fault? registry.keys = some error := by
  induction calls generalizing start with
  | nil => simp [runFrom, pure, Except.pure]
  | cons first rest ih =>
    rw [runFrom_cons]
    cases hf : first.fault? start.keys with
    | some fault =>
      constructor
      · intro h
        cases h
        exact ⟨[], first, rest, rfl, start, rfl, hf⟩
      · rintro ⟨before, call, after, heq, registry, hr, hc⟩
        cases before with
        | nil =>
          cases heq
          cases hr
          rw [hf] at hc
          exact congrArg Except.error (Option.some.inj hc)
        | cons other before =>
          cases heq
          rw [runFrom_cons, hf] at hr
          cases hr
    | none =>
      simp only [ih]
      constructor
      · rintro ⟨before, call, after, rfl, registry, hr, hc⟩
        exact ⟨first :: before, call, after, rfl, registry, by rw [runFrom_cons, hf]; exact hr, hc⟩
      · rintro ⟨before, call, after, heq, registry, hr, hc⟩
        cases before with
        | nil =>
          cases heq
          cases hr
          rw [hf] at hc
          cases hc
        | cons other before =>
          cases heq
          rw [runFrom_cons, hf] at hr
          exact ⟨before, call, after, rfl, registry, hr, hc⟩

/-! ## Keys of a run -/

/-- A call that does not fail brings keys that differ from each other and from those taken. -/
theorem Call.nodup_of_no_fault {taken : List String} {call : Call} (hn : taken.Nodup)
    (h : call.fault? taken = none) : (taken ++ call.keys).Nodup := by
  have hone : ∀ key, key ∉ taken → (taken ++ [key]).Nodup := fun key hk =>
    List.nodup_append.2 ⟨hn, List.nodup_singleton key, by rintro a ha _ hb rfl; simp_all⟩
  cases call with
  | register key scalar | registerShared key scalar => exact hone key (by simpa [fault?] using h)
  | define definition =>
    obtain ⟨⟨scalar, hb⟩, hk⟩ := fault?_eq_none_iff.1 h
    simpa [keys, entries, hb] using hone definition.key hk
  | withBuiltins =>
    have hfree : ∀ entry ∈ Scalar.builtins, entry.1 ∉ taken := by simpa [fault?] using h
    refine List.nodup_append.2 ⟨hn, builtins_keys_nodup, ?_⟩
    rintro key hk _ hmem rfl
    obtain ⟨entry, he, rfl⟩ := List.mem_map.1 hmem
    exact hfree entry he hk

theorem nodup_of_runFrom {start registry : Registry} {calls : List Call}
    (hn : start.keys.Nodup) (h : runFrom start calls = .ok registry) : registry.keys.Nodup := by
  induction calls generalizing start with
  | nil =>
    cases h
    exact hn
  | cons call rest ih =>
    rw [runFrom_cons] at h
    split at h
    · cases h
    · next hf =>
      refine ih ?_ h
      rw [keys_append]
      exact Call.nodup_of_no_fault hn hf

/-- Where the keys of all calls differ, a key belongs to one call only. -/
theorem index_eq_of_mem_keys {calls : List Call} (hn : (calls.flatMap Call.keys).Nodup)
    {key : String} {i j : Nat} {call other : Call} (hi : calls[i]? = some call)
    (hj : calls[j]? = some other) (hc : key ∈ call.keys) (ho : key ∈ other.keys) : i = j := by
  have hp := List.pairwise_iff_getElem.1 (List.nodup_flatMap.1 hn).2
  obtain ⟨hil, rfl⟩ := List.getElem?_eq_some_iff.1 hi
  obtain ⟨hjl, rfl⟩ := List.getElem?_eq_some_iff.1 hj
  rcases Nat.lt_trichotomy i j with hlt | heq | hgt
  · exact (hp i j hil hjl hlt hc ho).elim
  · exact heq
  · exact (hp j i hjl hil hgt ho hc).elim

/-! ## Looking up what was registered -/

/-- All look-ups agree that a scalar is registered under a key. -/
structure Holds (registry : Registry) (key : String) (scalar : Scalar) : Prop where
  mem_keys : key ∈ registry.keys
  contains : registry.contains key = true
  get? : registry.get? key = some scalar
  require : registry.require key = .ok scalar
  validate : ∀ inputKey input,
    registry.validate key inputKey input = .ok (scalar.validate inputKey input)

/-- All look-ups agree that nothing is registered under a key. -/
structure Lacks (registry : Registry) (key : String) : Prop where
  not_mem_keys : key ∉ registry.keys
  contains : registry.contains key = false
  get? : registry.get? key = none
  require : registry.require key = .error (.unknownScalar key)
  validate : ∀ inputKey input,
    registry.validate key inputKey input = .error (.unknownScalar key)

theorem holds_of_mem {registry : Registry} (hn : registry.keys.Nodup) {key : String}
    {scalar : Scalar} (h : (key, scalar) ∈ registry.entries) : registry.Holds key scalar := by
  have hk : key ∈ registry.keys := List.mem_map_of_mem h
  have hg : registry.get? key = some scalar := get?_of_mem hn h
  have hr : registry.require key = .ok scalar := by rw [Registry.require, hg]
  exact ⟨hk, contains_iff_mem_keys.2 hk, hg, hr, fun _ _ => by rw [Registry.validate, hr]; rfl⟩

theorem lacks_of_not_mem {registry : Registry} {key : String} (h : key ∉ registry.keys) :
    registry.Lacks key := by
  have hg : registry.get? key = none := get?_of_not_mem h
  have hr : registry.require key = .error (.unknownScalar key) := by rw [Registry.require, hg]
  have hc : registry.contains key = false := by rw [Registry.contains, hg]; rfl
  exact ⟨h, hc, hg, hr, fun _ _ => by rw [Registry.validate, hr]; rfl⟩

/-! ## The history of a registry -/

/-- **A registry is what its history says.** Calls are run from the empty registry; the first that
fails ends the run.

* What was built so far, a call fails or puts its own entries at the end. Registering fails exactly
  if the key is taken, and names it; adding the built-in scalars, exactly if one of their keys is,
  and names the first of these in their order; defining, if the definition has a flaw, which is
  told first, or if its key is taken.
* What a run has built holds the entries of its calls in their order, under keys that all differ.
* For every key all look-ups agree: they find the scalar of the one call that registered the key,
  and validate by it, or there is no such call and the error is that the key is unknown. -/
theorem built_from_history (calls : List Call) :
    (∀ error, runAll calls = .error error ↔
      ∃ before call after, calls = before ++ call :: after ∧
        ∃ reached, runAll before = .ok reached ∧ call.run reached = .error error) ∧
    ∀ registry, runAll calls = .ok registry →
      (∀ call : Call, (∃ error, call.run registry = .error error) ∨
        call.run registry = .ok ⟨registry.entries ++ call.entries⟩) ∧
      (∀ key scalar error, (Call.register key scalar).run registry = .error error ↔
        key ∈ registry.keys ∧ error = .duplicateScalar key) ∧
      (∀ key scalar error, (Call.registerShared key scalar).run registry = .error error ↔
        key ∈ registry.keys ∧ error = .duplicateScalar key) ∧
      (∀ error, Call.withBuiltins.run registry = .error error ↔
        ∃ before entry after, Scalar.builtins = before ++ entry :: after ∧
          (∀ e ∈ before, e.1 ∉ registry.keys) ∧ entry.1 ∈ registry.keys ∧
          error = .duplicateScalar entry.1) ∧
      (∀ definition error, (Call.define definition).run registry = .error error ↔
        (∃ flaw, definition.build = .error flaw ∧ error = .flawedDefinition flaw) ∨
        (∃ scalar, definition.build = .ok scalar) ∧ definition.key ∈ registry.keys ∧
          error = .duplicateScalar definition.key) ∧
      registry.entries = calls.flatMap Call.entries ∧
      registry.keys = calls.flatMap Call.keys ∧ registry.keys.Nodup ∧
      registry.size = (calls.flatMap Call.entries).length ∧
      (registry.isEmpty = true ↔ calls.flatMap Call.entries = []) ∧
      ∀ key, registry.Lacks key ∨ ∃ scalar, registry.Holds key scalar ∧
        ∃ (i : Nat) (call : Call), calls[i]? = some call ∧ (key, scalar) ∈ call.entries ∧
          ∀ (j : Nat) (other : Call), calls[j]? = some other → key ∈ other.keys → j = i := by
  refine ⟨fun error => ?_, fun registry h => ?_⟩
  · simp only [Call.run_eq_error_iff]
    exact runFrom_eq_error_iff
  have hentries : registry.entries = calls.flatMap Call.entries := entries_of_runFrom h
  have hkeys : registry.keys = calls.flatMap Call.keys := by
    rw [keys, hentries, List.map_flatMap]
    rfl
  have h0 : empty.keys.Nodup := List.nodup_nil
  have hn : registry.keys.Nodup := nodup_of_runFrom h0 h
  refine ⟨?_, ?_, ?_, ?_, ?_, hentries, hkeys, hn, ?_, ?_, ?_⟩
  · intro call
    rw [call.run_eq]
    cases call.fault? registry.keys with
    | some error => exact .inl ⟨error, rfl⟩
    | none => exact .inr rfl
  · intro key scalar error
    rw [Call.run_eq_error_iff]
    exact fault_of_key_iff
  · intro key scalar error
    rw [Call.run_eq_error_iff]
    exact fault_of_key_iff
  · intro error
    rw [Call.run_eq_error_iff]
    exact Call.fault?_withBuiltins_eq_some_iff
  · intro definition error
    rw [Call.run_eq_error_iff]
    exact fault?_eq_some_iff
  · rw [size, hentries]
  · rw [isEmpty, hentries, List.isEmpty_iff]
  · intro key
    by_cases hk : key ∈ registry.keys
    · right
      obtain ⟨entry, he, rfl⟩ := List.mem_map.1 hk
      refine ⟨entry.2, holds_of_mem hn he, ?_⟩
      rw [hentries, List.mem_flatMap] at he
      obtain ⟨call, hc, he⟩ := he
      obtain ⟨i, hi⟩ := List.mem_iff_getElem?.1 hc
      refine ⟨i, call, hi, he, fun j other hj ho => ?_⟩
      rw [hkeys] at hn
      exact index_eq_of_mem_keys hn hj hi ho (List.mem_map_of_mem he)
    · exact .inl (lacks_of_not_mem hk)

/-- A shared scalar under two keys, the built-in ones and a definition make a registry in which the
second key finds that scalar. Where a scalar stands under `Int` and another under `Date`, adding the
built-in ones fails at `Int`, which comes first among them. -/
theorem built_from_history_shared :
    let port : Scalar := ⟨.int, .boundedInt (.range 1 65535)⟩
    let name : Definition := ⟨"Name", .string, some "Name", none, some 1, none⟩
    let calls := [Call.registerShared "Port" port, .registerShared "Peer" port, .withBuiltins,
      .define name]
    (∃ registry, runAll calls = .ok registry ∧ registry.size = 14 ∧ registry.keys.Nodup ∧
      registry.Holds "Peer" port) ∧
    runAll [.register "Date" port, .register "Int" port, .withBuiltins] =
      .error (.duplicateScalar "Int") := by
  intro port name calls
  constructor
  · have hok : (runAll calls).isOk = true := by decide +kernel
    obtain ⟨registry, h⟩ : ∃ registry, runAll calls = .ok registry := by
      cases h : runAll calls with
      | ok registry => exact ⟨registry, rfl⟩
      | error error =>
        rw [h] at hok
        cases hok
    obtain ⟨-, -, -, -, -, -, hkeys, hn, hsize, -, hlook⟩ :=
      (built_from_history calls).2 registry h
    refine ⟨registry, h, hsize.trans rfl, hn, ?_⟩
    rcases hlook "Peer" with hl | ⟨scalar, hh, i, call, hi, he, hone⟩
    · refine absurd ?_ hl.not_mem_keys
      rw [hkeys]
      decide
    · obtain rfl : 1 = i := hone 1 (.registerShared "Peer" port) rfl (by decide)
      cases hi
      obtain rfl : port = scalar := by simpa [Call.entries, eq_comm] using he
      exact hh
  · let before := [Call.register "Date" port, .register "Int" port]
    have hb : runAll before = .ok ⟨[("Date", port), ("Int", port)]⟩ := rfl
    obtain ⟨-, -, -, hbuiltins, -⟩ := (built_from_history before).2 _ hb
    have hint : Scalar.builtins = Scalar.builtins.take 4 ++
        ("Int", ⟨.int, .required .int⟩) :: Scalar.builtins.drop 5 := rfl
    have hfail := (hbuiltins (.duplicateScalar "Int")).2
      ⟨_, _, _, hint, by decide, by decide, rfl⟩
    exact ((built_from_history _).1 _).2 ⟨before, .withBuiltins, [], rfl, _, hb, hfail⟩

end SchemaScalar.Registry
