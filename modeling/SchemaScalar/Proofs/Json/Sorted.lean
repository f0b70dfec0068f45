import SchemaScalar.Proofs.Json.Agreement

/-!
# Members in another order

A record is taken from the members of an object in any order, since members that fill different
fields do not get in each other's way and two for one field are refused (`takeObject_perm`,
`takeObject_ne_ok`). So it is the same to take a document and to take it sorted, unless some object
in it has two members with one key, of which sorting drops the first (`TakesSorted`).
-/

namespace SchemaScalar.Json

variable {α β σ ε : Type}

/-- Whether it makes no difference to a decoder that a document without repeats is sorted. -/
def Decoder.TakesSorted (decoder : Decoder α) : Prop :=
  ∀ document : Json, document.isRepeatFree = true → ∀ value,
    decoder.ofJson document.sorted = .ok value ↔ decoder.ofJson document = .ok value

/-! ## Steps that commute -/

/-- Steps that can be swapped lead to the same end in any order. -/
theorem foldlM_of_perm {step : σ → β → Except ε σ}
    (hswap : ∀ start first second next final, step start first = .ok next →
      step next second = .ok final → ∃ other, step start second = .ok other ∧
        step other first = .ok final)
    {items others : List β} (hperm : items.Perm others) {start final : σ}
    (h : items.foldlM step start = .ok final) : others.foldlM step start = .ok final := by
  induction hperm generalizing start with
  | nil => exact h
  | cons item _ ih =>
    rw [List.foldlM_cons] at h ⊢
    obtain ⟨next, hstep, h⟩ := exists_of_bind_eq_ok h
    exact ok_of_bind_iff.2 ⟨next, hstep, ih h⟩
  | swap first second items =>
    simp only [List.foldlM_cons, ok_of_bind_iff] at h ⊢
    obtain ⟨next, hsecond, after, hfirst, h⟩ := h
    obtain ⟨other, hother, hlast⟩ := hswap start second first next after hsecond hfirst
    exact ⟨other, hother, after, hlast, h⟩
  | trans _ _ ih₁ ih₂ => exact ih₂ (ih₁ h)

/-! ## Members of records -/

namespace Record

variable {Field : Type} {record : Record Field α} [DecidableEq Field]

theorem fill_comm (draft : record.Draft) {field other : Field} (h : other ≠ field)
    (content : record.Content field) (held : record.Content other) :
    record.fill (record.fill draft field content) other held =
      record.fill (record.fill draft other held) field content := by
  funext wanted
  by_cases hfield : wanted = field
  · subst hfield
    rw [fill_self, fill_of_ne _ h.symm, fill_self]
  · rw [fill_of_ne _ hfield]
    by_cases hother : wanted = other
    · subst hother
      rw [fill_self, fill_self]
    · rw [fill_of_ne _ hother, fill_of_ne _ hother, fill_of_ne _ hfield]

/-- A member that is no field leaves the draft as it is, if it is not refused. -/
theorem takeMember_of_none {draft next : record.Draft} {name : String}
    (hfield : record.field? name = none) {value : Json} :
    record.takeMember draft name value = .ok next ↔ record.isClosed = false ∧ next = draft := by
  unfold takeMember
  rw [hfield]
  cases record.isClosed with
  | true => exact iff_of_false (by rintro ⟨⟩) (by rintro ⟨⟨⟩, _⟩)
  | false => simp [eq_comm]

/-- What it takes for a member that is a field to be taken. -/
theorem takeMember_of_some {draft next : record.Draft} {name : String} {field : Field}
    (hfield : record.field? name = some field) {value : Json} :
    record.takeMember draft name value = .ok next ↔
      ∃ content, draft field = none ∧ (record.decoder field).ofJson value = .ok content ∧
        record.fill draft field content = next := by
  refine ⟨exists_of_takeMember hfield, ?_⟩
  rintro ⟨content, hempty, hcontent, rfl⟩
  exact takeMember_eq hfield hempty hcontent

/-- Two members are taken in either order. -/
theorem takeMember_swap (start : record.Draft) (first second : String × Json)
    (next final : record.Draft) (hfirst : record.takeMember start first.1 first.2 = .ok next)
    (hsecond : record.takeMember next second.1 second.2 = .ok final) :
    ∃ other, record.takeMember start second.1 second.2 = .ok other ∧
      record.takeMember other first.1 first.2 = .ok final := by
  cases hf : record.field? first.1 with
  | none =>
    obtain ⟨hopen, rfl⟩ := (takeMember_of_none hf).1 hfirst
    exact ⟨final, hsecond, (takeMember_of_none hf).2 ⟨hopen, rfl⟩⟩
  | some field =>
    cases hs : record.field? second.1 with
    | none =>
      obtain ⟨hopen, rfl⟩ := (takeMember_of_none hs).1 hsecond
      exact ⟨start, (takeMember_of_none hs).2 ⟨hopen, rfl⟩, hfirst⟩
    | some other =>
      obtain ⟨content, hempty, hcontent, rfl⟩ := (takeMember_of_some hf).1 hfirst
      obtain ⟨held, hfree, hheld, rfl⟩ := (takeMember_of_some hs).1 hsecond
      have hne : other ≠ field := by
        rintro rfl
        rw [fill_self] at hfree
        cases hfree
      rw [fill_of_ne _ hne] at hfree
      refine ⟨record.fill start other held, takeMember_eq hs hfree hheld, ?_⟩
      rw [fill_comm start hne]
      exact takeMember_eq hf (by rw [fill_of_ne _ hne.symm, hempty]) hcontent

/-- **The order of members makes no difference.** -/
theorem takeObject_perm {members others : List (String × Json)} (hperm : members.Perm others)
    {value : α} : record.takeObject members = .ok value ↔ record.takeObject others = .ok value := by
  have hfold {items others : List (String × Json)} (hperm : items.Perm others) {value : α}
      (h : record.takeObject items = .ok value) : record.takeObject others = .ok value := by
    obtain ⟨draft, hdraft, hassemble⟩ := takeObject_eq_ok_iff.1 h
    exact takeObject_eq_ok_iff.2
      ⟨draft, foldlM_of_perm (fun start first second => takeMember_swap start first second)
        hperm hdraft, hassemble⟩
  exact ⟨hfold hperm, hfold hperm.symm⟩

/-- Of several members with one name one can be put in front. -/
theorem exists_perm_cons {name : String} {members : List (String × Json)}
    (h : 0 < (members.map Prod.fst).count name) :
    ∃ value others, members.Perm ((name, value) :: others) := by
  obtain ⟨⟨_, value⟩, hmem, rfl⟩ := List.mem_map.1 (List.count_pos_iff.1 h)
  obtain ⟨before, after, rfl⟩ := List.append_of_mem hmem
  exact ⟨value, before ++ after, List.perm_middle⟩

/-- **A field with two members is refused**, wherever they stand. -/
theorem takeObject_ne_ok {name : String} {field : Field} (hfield : record.field? name = some field)
    {members : List (String × Json)} (h : 2 ≤ (members.map Prod.fst).count name) (value : α) :
    record.takeObject members ≠ .ok value := by
  obtain ⟨first, others, hperm⟩ := exists_perm_cons (Nat.lt_of_lt_of_le Nat.two_pos h)
  rw [(hperm.map Prod.fst).count_eq, List.map_cons, List.count_cons_self] at h
  obtain ⟨second, others, hothers⟩ := exists_perm_cons (Nat.le_of_succ_le_succ h)
  intro hvalue
  have htaken := (takeObject_perm (hperm.trans (hothers.cons _))).1 hvalue
  obtain ⟨draft, hdraft, -⟩ := takeObject_eq_ok_iff.1 htaken
  simp only [List.foldlM_cons, ok_of_bind_iff] at hdraft
  obtain ⟨next, hfirst, _, hsecond, -⟩ := hdraft
  obtain ⟨content, -, -, rfl⟩ := (takeMember_of_some hfield).1 hfirst
  obtain ⟨_, hempty, -, -⟩ := (takeMember_of_some hfield).1 hsecond
  rw [fill_self] at hempty
  cases hempty

end Record

/-! ## Sorting the members of a document -/

theorem names_sortedMembers (members : List (String × Json)) :
    (sortedMembers members).map Prod.fst = members.map Prod.fst := by
  rw [sortedMembers_eq, List.map_map]
  rfl

/-- Without repeats no member is lost. -/
theorem sortMembers_sortedMembers_perm {members : List (String × Json)}
    (h : (members.map Prod.fst).Nodup) :
    (sortMembers (sortedMembers members)).Perm
      (members.map fun member => (member.1, member.2.sorted)) := by
  rw [← sortedMembers_eq]
  exact sortMembers_perm ((names_sortedMembers members).symm ▸ h)

namespace Decoder

/-! ## Scalar values -/

/-- What takes no containers does not see that they are sorted. -/
theorem takesSorted_of_refuses {decoder : Decoder α}
    (harray : ∀ elements value, decoder.ofJson (.array elements) ≠ .ok value)
    (hobject : ∀ members value, decoder.ofJson (.object members) ≠ .ok value) :
    decoder.TakesSorted := by
  intro document _ value
  cases document with
  | array elements =>
    rw [sorted]
    exact iff_of_false (harray _ value) (harray _ value)
  | object members =>
    rw [sorted]
    exact iff_of_false (hobject _ value) (hobject _ value)
  | _ => rw [sorted]

theorem takesSorted_string : string.TakesSorted :=
  takesSorted_of_refuses (by rintro _ _ ⟨⟩) (by rintro _ _ ⟨⟩)

theorem takesSorted_unit : unit.TakesSorted :=
  takesSorted_of_refuses (by rintro _ _ ⟨⟩) (by rintro _ _ ⟨⟩)

theorem takesSorted_int64 : int64.TakesSorted :=
  takesSorted_of_refuses (by rintro _ _ ⟨⟩) (by rintro _ _ ⟨⟩)

theorem takesSorted_optional {inner : Decoder α} (h : inner.TakesSorted) :
    (optional inner).TakesSorted := by
  intro document hdocument value
  by_cases hnull : document = .null
  · rw [hnull, sorted]
  · have hsorted : document.sorted ≠ .null := by
      cases document with
      | null => exact absurd rfl hnull
      | _ => rw [sorted]; rintro ⟨⟩
    rw [optional_ofJson hnull, optional_ofJson hsorted]
    exact exists_congr fun content => and_congr_left fun _ => h document hdocument content

theorem takesSorted_choice (choices : List (String × α)) : (choice choices).TakesSorted := by
  intro document hdocument value
  cases document with
  | object members =>
    obtain ⟨hnodup, hinner⟩ := isRepeatFree_object.1 hdocument
    have hperm := sortMembers_sortedMembers_perm hnodup
    rw [sorted, choice_ofJson_object, choice_ofJson_object]
    constructor
    · rintro ⟨name, _, hsingle, hchosen, hnull⟩
      rw [hsingle, List.singleton_perm] at hperm
      obtain ⟨member, rfl, heq⟩ := List.map_eq_singleton_iff.1 hperm.symm
      cases heq
      have hmember := takesSorted_unit member.2 (hinner member List.mem_cons_self) ()
      exact ⟨member.1, member.2, rfl, hchosen, hmember.1 hnull⟩
    · rintro ⟨name, inner, rfl, hchosen, hnull⟩
      rw [List.map_singleton, List.perm_singleton] at hperm
      have hmember := takesSorted_unit inner (hinner (name, inner) List.mem_cons_self) ()
      exact ⟨name, _, hperm, hchosen, hmember.2 hnull⟩
  | array elements =>
    rw [sorted]
    exact iff_of_false (by rintro ⟨⟩) (by rintro ⟨⟩)
  | _ => rw [sorted]

end Decoder

/-! ## Records -/

namespace Record

variable {Field : Type} {record : Record Field α} [DecidableEq Field]

theorem takePositions_sorted (hdecoder : ∀ field, (record.decoder field).TakesSorted)
    {elements : List Json} (hinner : ∀ element ∈ elements, element.isRepeatFree = true)
    (fields : List Field) (draft next : record.Draft) :
    record.takePositions fields (elements.map sorted) draft = .ok next ↔
      record.takePositions fields elements draft = .ok next := by
  induction elements generalizing fields draft with
  | nil => exact Iff.rfl
  | cons element elements ih =>
    cases fields with
    | nil => exact Iff.rfl
    | cons field fields =>
      have hrest := ih fun other hmem => hinner other (List.mem_cons_of_mem _ hmem)
      rw [List.map_cons, takePositions, takePositions, ok_of_bind_iff, ok_of_bind_iff]
      refine exists_congr fun content => and_congr ?_ (hrest fields _)
      exact hdecoder field element (hinner element List.mem_cons_self) content

theorem takeMember_sorted (hdecoder : ∀ field, (record.decoder field).TakesSorted)
    {value : Json} (hinner : value.isRepeatFree = true) (draft next : record.Draft) (name : String) :
    record.takeMember draft name value.sorted = .ok next ↔
      record.takeMember draft name value = .ok next := by
  cases hfield : record.field? name with
  | none => rw [takeMember_of_none hfield, takeMember_of_none hfield]
  | some field =>
    rw [takeMember_of_some hfield, takeMember_of_some hfield]
    exact exists_congr fun content =>
      and_congr_right fun _ => and_congr_left fun _ => hdecoder field value hinner content

theorem foldlM_takeMember_sorted (hdecoder : ∀ field, (record.decoder field).TakesSorted)
    {members : List (String × Json)} (hinner : ∀ member ∈ members, member.2.isRepeatFree = true)
    (draft next : record.Draft) :
    (members.map fun member => (member.1, member.2.sorted)).foldlM
        (fun draft (name, value) => record.takeMember draft name value) draft = .ok next ↔
      members.foldlM (fun draft (name, value) => record.takeMember draft name value) draft =
        .ok next := by
  induction members generalizing draft with
  | nil => exact Iff.rfl
  | cons member members ih =>
    have hrest := ih fun other hmem => hinner other (List.mem_cons_of_mem _ hmem)
    rw [List.map_cons, List.foldlM_cons, List.foldlM_cons, ok_of_bind_iff, ok_of_bind_iff]
    refine exists_congr fun filled => and_congr ?_ (hrest filled)
    exact takeMember_sorted hdecoder (hinner member List.mem_cons_self) draft filled member.1

theorem takesSorted_toDecoder (hdecoder : ∀ field, (record.decoder field).TakesSorted) :
    record.toDecoder.TakesSorted := by
  intro document hdocument value
  cases document with
  | array elements =>
    have hinner := isRepeatFree_array.1 hdocument
    rw [sorted, sortedElements_eq]
    show record.takeArray _ = _ ↔ record.takeArray _ = _
    rw [takeArray_eq_ok_iff, takeArray_eq_ok_iff, List.length_map]
    exact exists_congr fun draft =>
      and_congr_left fun _ => takePositions_sorted hdecoder hinner _ _ draft
  | object members =>
    obtain ⟨hnodup, hinner⟩ := isRepeatFree_object.1 hdocument
    rw [sorted]
    show record.takeObject _ = _ ↔ record.takeObject _ = _
    rw [takeObject_perm (sortMembers_sortedMembers_perm hnodup), takeObject_eq_ok_iff,
      takeObject_eq_ok_iff]
    exact exists_congr fun draft =>
      and_congr_left fun _ => foldlM_takeMember_sorted hdecoder hinner _ draft
  | _ => rw [sorted]

end Record

end SchemaScalar.Json
