import SchemaScalar.Json.Record
import SchemaScalar.Proofs.Json.Decoder

/-!
# Records read back

The fields of a record are written as members, those without a value left out. However the members
are ordered, taking them fills the draft field by field (`foldlM_takeMember`), since a member fills
the field that it is named for and leaves the others alone. So what is taken of an object is the
record that its fields were written for (`takeObject_written`), and its text is read as the same
(`readsText_object`).
-/

namespace SchemaScalar.Json

/-! ## Sorting members -/

section Sorting

variable {α : Type}

theorem insertMember_perm {key : String} (value : α) {members : List (String × α)}
    (h : key ∉ members.map Prod.fst) :
    (insertMember key value members).Perm ((key, value) :: members) := by
  induction members with
  | nil => exact .refl _
  | cons member members ih =>
    obtain ⟨k, v⟩ := member
    rw [List.map_cons, List.mem_cons, not_or] at h
    unfold insertMember
    rw [if_neg h.1]
    split
    · exact .refl _
    · exact ((ih h.2).cons _).trans (.swap _ _ _)

theorem foldl_insertMember_perm (members sorted : List (String × α))
    (h : ((members ++ sorted).map Prod.fst).Nodup) :
    (members.foldl (fun sorted (k, v) => insertMember k v sorted) sorted).Perm
      (members ++ sorted) := by
  induction members generalizing sorted with
  | nil => exact .refl _
  | cons member members ih =>
    obtain ⟨key, value⟩ := member
    have hkey : key ∉ sorted.map Prod.fst := fun hmem =>
      (List.nodup_cons.1 h).1 (List.map_append ▸ List.mem_append_right _ hmem)
    have hperm : (members ++ insertMember key value sorted).Perm
        ((key, value) :: members ++ sorted) :=
      ((insertMember_perm value hkey).append_left members).trans List.perm_middle
    exact (ih _ ((hperm.map Prod.fst).nodup_iff.2 h)).trans hperm

/-- Sorting loses no member if no two have one key. -/
theorem sortMembers_perm {members : List (String × α)} (h : (members.map Prod.fst).Nodup) :
    (sortMembers members).Perm members := by
  have hperm := foldl_insertMember_perm members [] (by rwa [List.append_nil])
  rwa [List.append_nil] at hperm

end Sorting

namespace Record

variable {Field α : Type} {record : Record Field α}

/-! ## Fields and their names -/

/-- The members with which fields are written, in declared order, those without a value left out. -/
def writtenMembers (record : Record Field α) (written : Field → Option Json) :
    List (String × Json) :=
  record.fields.filterMap fun field => (written field).map (record.label field, ·)

/-- Whether each field is declared once and found by its name. -/
structure TellsFields (record : Record Field α) : Prop where
  nodup : record.fields.Nodup
  field?_label : ∀ field, record.field? (record.label field) = some field

theorem label_of_field? {name : String} {field : Field} (h : record.field? name = some field) :
    record.label field = name := by
  have := List.find?_some h
  exact eq_of_beq this

theorem TellsFields.label_inj (h : record.TellsFields) {field other : Field}
    (heq : record.label field = record.label other) : field = other := by
  have hf := h.field?_label field
  rw [heq, h.field?_label other] at hf
  exact (Option.some.inj hf).symm

theorem TellsFields.mem_fields (h : record.TellsFields) (field : Field) : field ∈ record.fields :=
  List.mem_of_find?_eq_some (h.field?_label field)

theorem mem_writtenMembers (h : record.TellsFields) {written : Field → Option Json} {name : String}
    {value : Json} :
    (name, value) ∈ record.writtenMembers written ↔
      ∃ field, record.label field = name ∧ written field = some value := by
  simp only [writtenMembers, List.mem_filterMap, Option.map_eq_some_iff, Prod.mk.injEq]
  constructor
  · rintro ⟨field, -, _, hw, rfl, rfl⟩
    exact ⟨field, rfl, hw⟩
  · rintro ⟨field, rfl, hw⟩
    exact ⟨field, h.mem_fields field, value, hw, rfl, rfl⟩

theorem names_nodup (h : record.TellsFields) (written : Field → Option Json) :
    ((record.writtenMembers written).map Prod.fst).Nodup := by
  rw [List.Nodup, List.pairwise_map, writtenMembers, List.pairwise_filterMap]
  refine h.nodup.imp fun hne member hmember other hother heq => hne (h.label_inj ?_)
  obtain ⟨_, -, rfl⟩ := Option.map_eq_some_iff.1 hmember
  obtain ⟨_, -, rfl⟩ := Option.map_eq_some_iff.1 hother
  exact heq

/-! ## Drafts -/

variable [DecidableEq Field]

theorem fill_self (draft : record.Draft) (field : Field) (content : record.Content field) :
    record.fill draft field content field = some content := by
  simp [fill]

theorem fill_of_ne (draft : record.Draft) {field other : Field} (h : other ≠ field)
    (content : record.Content field) : record.fill draft field content other = draft other := by
  simp [fill, h]

theorem takeMember_eq {draft : record.Draft} {name : String} {value : Json} {field : Field}
    {content : record.Content field} (hfield : record.field? name = some field)
    (hempty : draft field = none) (hcontent : (record.decoder field).ofJson value = .ok content) :
    record.takeMember draft name value = .ok (record.fill draft field content) := by
  simp only [takeMember, hfield, hempty, hcontent]
  rfl

/-- What it takes for a member of a known field to be taken. -/
theorem exists_of_takeMember {draft next : record.Draft} {name : String} {value : Json}
    {field : Field} (hfield : record.field? name = some field)
    (h : record.takeMember draft name value = .ok next) :
    ∃ content, draft field = none ∧ (record.decoder field).ofJson value = .ok content ∧
      record.fill draft field content = next := by
  simp only [takeMember, hfield] at h
  split at h
  · cases h
  · next hempty =>
    obtain ⟨content, hcontent, hnext⟩ := exists_of_bind_eq_ok h
    exact ⟨content, by simpa using hempty, hcontent, Except.ok.inj hnext⟩

/-- **Members fill a draft**, in any order: those still to come are for fields that are empty so
far, and all other fields have got what the draft has for them. -/
theorem foldlM_takeMember {draft start : record.Draft} {members : List (String × Json)}
    (hnames : (members.map Prod.fst).Nodup)
    (hmembers : ∀ member ∈ members, ∃ field content, record.field? member.1 = some field ∧
      (record.decoder field).ofJson member.2 = .ok content ∧ draft field = some content ∧
      start field = none)
    (hothers : ∀ field, start field = draft field ∨
      ∃ member ∈ members, record.field? member.1 = some field) :
    members.foldlM (fun draft (name, value) => record.takeMember draft name value) start =
      .ok draft := by
  induction members generalizing start with
  | nil =>
    have heq : start = draft := funext fun field => by simpa using hothers field
    rw [heq]
    rfl
  | cons member members ih =>
    obtain ⟨name, value⟩ := member
    obtain ⟨field, content, hfield, hcontent, hdraft, hempty⟩ := hmembers _ List.mem_cons_self
    obtain ⟨hname, hnames⟩ := List.nodup_cons.1 hnames
    have hne : ∀ member ∈ members, ∀ other,
        record.field? member.1 = some other → other ≠ field := by
      rintro member hmem other hother rfl
      have heq : member.1 = name := (label_of_field? hother).symm.trans (label_of_field? hfield)
      exact hname (List.mem_map.2 ⟨member, hmem, heq⟩)
    have htake := takeMember_eq hfield hempty hcontent
    rw [List.foldlM_cons]
    dsimp only
    rw [htake]
    refine ih hnames ?_ ?_
    · intro member hmem
      obtain ⟨other, found, hother, hfound, hheld, hfree⟩ :=
        hmembers member (List.mem_cons_of_mem _ hmem)
      have hfree' := fill_of_ne start (hne member hmem other hother) content
      exact ⟨other, found, hother, hfound, hheld, hfree'.trans hfree⟩
    · intro other
      by_cases heq : other = field
      · subst heq
        exact .inl ((fill_self start other content).trans hdraft.symm)
      · rw [fill_of_ne start heq content]
        refine (hothers other).imp_right ?_
        rintro ⟨member, hmem, hother⟩
        obtain rfl | hmem := List.mem_cons.1 hmem
        · exact absurd (Option.some.inj (hother.symm.trans hfield)) heq
        · exact ⟨member, hmem, hother⟩

/-! ## Objects -/

theorem takeObject_eq_ok_iff {members : List (String × Json)} {assembled : α} :
    record.takeObject members = .ok assembled ↔
      ∃ draft, members.foldlM (fun draft (name, value) => record.takeMember draft name value)
        record.blank = .ok draft ∧ record.assemble draft = .ok assembled := by
  constructor
  · intro h
    obtain ⟨draft, hdraft, hvalue⟩ := exists_of_bind_eq_ok h
    cases hassemble : record.assemble draft with
    | ok value =>
      rw [hassemble] at hvalue
      cases hvalue
      exact ⟨draft, hdraft, hassemble⟩
    | error field =>
      rw [hassemble] at hvalue
      cases hvalue
  · rintro ⟨draft, hdraft, hassemble⟩
    simp only [takeObject, hdraft, bind, Except.bind, hassemble]
    rfl

/-- **What was written of a draft is taken as the draft**, however the members are ordered:
`written` gives the value with which each field is written, if any. -/
theorem takeObject_written (h : record.TellsFields) {written : Field → Option Json}
    {draft : record.Draft}
    (hdraft : ∀ field, (written field).mapM (record.decoder field).ofJson = .ok (draft field))
    {members : List (String × Json)} (hperm : members.Perm (record.writtenMembers written))
    {assembled : α} (hassemble : record.assemble draft = .ok assembled) :
    record.takeObject members = .ok assembled := by
  have hfold : members.foldlM (fun draft (name, value) => record.takeMember draft name value)
      record.blank = .ok draft := by
    refine foldlM_takeMember ((hperm.map Prod.fst).nodup_iff.2 (names_nodup h written)) ?_ ?_
    · rintro ⟨name, value⟩ hmem
      obtain ⟨field, rfl, hwritten⟩ := (mem_writtenMembers h).1 (hperm.mem_iff.1 hmem)
      have htaken := hdraft field
      rw [hwritten] at htaken
      obtain ⟨content, hcontent, hheld⟩ := exists_of_bind_eq_ok htaken
      exact ⟨field, content, h.field?_label field, hcontent, (Except.ok.inj hheld).symm, rfl⟩
    · intro field
      cases hwritten : written field with
      | none =>
        have htaken := hdraft field
        rw [hwritten] at htaken
        exact .inl (Except.ok.inj htaken)
      | some value =>
        have hmem := (mem_writtenMembers h).2 ⟨field, rfl, hwritten⟩
        exact .inr ⟨_, hperm.mem_iff.2 hmem, h.field?_label field⟩
  exact takeObject_eq_ok_iff.2 ⟨draft, hfold, hassemble⟩

theorem readMember_write {draft next : record.Draft} {name : String} {value : Json} {field : Field}
    (hfield : record.field? name = some field) (hread : (record.decoder field).ReadsText value)
    (h : record.takeMember draft name value = .ok next) :
    (record.readMember draft name).Reads (':' :: value.write) next := by
  intro rest hrest
  obtain ⟨content, hempty, hcontent, rfl⟩ := exists_of_takeMember hfield h
  have hcolon : Reader.colon (':' :: value.write ++ rest) = .ok ((), value.write ++ rest) := rfl
  simp only [readMember, hfield, hempty, Option.isSome_none, Bool.false_eq_true, if_false,
    Reader.bind_apply, hcolon, hread content hcontent rest hrest, Reader.pure_apply]

/-- **The text of an object is read as the object is taken**, if its members are fields. -/
theorem readsText_object {members : List (String × Json)}
    (hmembers : ∀ member ∈ members, ∃ field, record.field? member.1 = some field ∧
      (record.decoder field).ReadsText member.2) :
    record.toDecoder.ReadsText (.object members) := by
  intro value h rest _
  obtain ⟨draft, hdraft, hassemble⟩ := takeObject_eq_ok_iff.1 h
  have hread : Reader.members record.readMember record.blank
      (commaSeparated (writeMembers members) ++ '\x7d' :: rest) = .ok (draft, '\x7d' :: rest) := by
    refine Reader.members_write ?_ hdraft rest
    intro member hmem gathered next hnext
    obtain ⟨field, hfield, htext⟩ := hmembers member hmem
    exact readMember_write hfield htext hnext
  rw [write_object]
  show record.readObject (commaSeparated (writeMembers members) ++ '\x7d' :: rest) = _
  rw [readObject, Reader.bind_apply, hread]
  dsimp only
  rw [hassemble]
  rfl

end Record

end SchemaScalar.Json
