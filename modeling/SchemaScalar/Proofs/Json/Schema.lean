import SchemaScalar.Proofs.Json.Meaning
import SchemaScalar.Proofs.Json.Record

/-!
# What records make of documents

The members of an object are gathered one after the other, each step from one draft to the next.
Whatever their order, this comes to one condition for each field: the members with its name are one
that means a value, or none at all (`gathers_takes_iff`, `gathers_sets_iff`). So an object is read
as a record exactly if the values that its fields get can be assembled, and a record that is closed
has no other members (`decides_record`).
-/

namespace SchemaScalar.Json

variable {α β σ : Type}

/-! ## Gathering -/

/-- Whether there are steps, one for each item of a list, that lead from a start to an end. -/
def Gathers (step : σ → β → σ → Prop) : σ → List β → σ → Prop
  | start, [], final => final = start
  | start, item :: items, final => ∃ next, step start item next ∧ Gathers step next items final

namespace Reader

section Members

variable {step : σ → String → Reader σ} {takes : σ → String × Tree → σ → Prop}

/-- The first of several members is read, then the others. -/
theorem membersWithin_cons {isFirst : Bool} {text : List Char} {member : String × Tree}
    {members : List (String × Tree)} {bound : Nat} {rest : List Char} {gathered : σ}
    (hkey : nextKey isFirst text = .ok (some member.1, ':' :: member.2.render ++
      ((members.map Tree.renderMember).flatMap (',' :: ·) ++ '\x7d' :: rest)))
    (hfirst : (step gathered member.1).Decides (':' :: member.2.render) (takes gathered member))
    (hothers : ∀ next final left, membersWithin step bound false next
        ((members.map Tree.renderMember).flatMap (',' :: ·) ++ '\x7d' :: rest) =
          .ok (final, left) ↔
      Gathers takes next members final ∧ left = '\x7d' :: rest)
    (final : σ) (left : List Char) :
    membersWithin step (bound + 1) isFirst gathered text = .ok (final, left) ↔
      Gathers takes gathered (member :: members) final ∧ left = '\x7d' :: rest := by
  have hfirst := hfirst _ (follows_others (.inr rfl) (members.map Tree.renderMember) rest)
  rw [membersWithin, bind_of_ok hkey]
  dsimp only
  rw [bind_eq_ok_iff]
  constructor
  · rintro ⟨next, after, hread, hrest⟩
    obtain ⟨hnext, rfl⟩ := (hfirst next after).1 hread
    obtain ⟨hgathers, rfl⟩ := (hothers next final left).1 hrest
    exact ⟨⟨next, hnext, hgathers⟩, rfl⟩
  · rintro ⟨⟨next, hnext, hgathers⟩, rfl⟩
    exact ⟨next, _, (hfirst next _).2 ⟨hnext, rfl⟩, (hothers next final _).2 ⟨hgathers, rfl⟩⟩

theorem membersWithin_others_iff {members : List (String × Tree)}
    (hstep : ∀ member ∈ members, ∀ gathered,
      (step gathered member.1).Decides (':' :: member.2.render) (takes gathered member))
    {bound : Nat} (hbound : members.length < bound) (rest : List Char) (gathered final : σ)
    (left : List Char) :
    membersWithin step bound false gathered
        ((members.map Tree.renderMember).flatMap (',' :: ·) ++ '\x7d' :: rest) =
          .ok (final, left) ↔
      Gathers takes gathered members final ∧ left = '\x7d' :: rest := by
  induction members generalizing gathered final left bound with
  | nil =>
    rw [List.map_nil, List.flatMap_nil, List.nil_append, membersWithin_end hbound, Gathers]
    simp [eq_comm]
  | cons member members ih =>
    obtain ⟨bound, rfl⟩ : ∃ n, bound = n + 1 := ⟨bound - 1, by omega⟩
    refine membersWithin_cons ?_ (hstep member List.mem_cons_self gathered)
      (ih (fun m hm => hstep m (List.mem_cons_of_mem _ hm)) (Nat.lt_of_succ_lt_succ hbound))
      final left
    rw [List.map_cons, List.flatMap_cons, List.cons_append, List.cons_append, List.append_assoc,
      Tree.renderMember, List.append_assoc]
    exact nextKey_other _ _

/-- **The members of an object are gathered**, one by one. -/
theorem members_iff {members : List (String × Tree)}
    (hstep : ∀ member ∈ members, ∀ gathered,
      (step gathered member.1).Decides (':' :: member.2.render) (takes gathered member))
    (rest : List Char) (start final : σ) (left : List Char) :
    Reader.members step start
        (commaSeparated (members.map Tree.renderMember) ++ '\x7d' :: rest) =
          .ok (final, left) ↔
      Gathers takes start members final ∧ left = '\x7d' :: rest := by
  rw [Reader.members]
  cases members with
  | nil =>
    rw [List.map_nil, commaSeparated, List.nil_append, membersWithin_end (Nat.succ_pos _), Gathers]
    simp [eq_comm]
  | cons member members =>
    have hbound := length_le_others (members.map Tree.renderMember)
    rw [List.length_map] at hbound
    rw [List.map_cons, commaSeparated_cons, List.append_assoc]
    refine membersWithin_cons ?_ (hstep member List.mem_cons_self start)
      (membersWithin_others_iff (fun m hm => hstep m (List.mem_cons_of_mem _ hm)) ?_ rest)
      final left
    · rw [Tree.renderMember, List.append_assoc]
      exact nextKey_first _ _
    · simp only [List.length_append, List.length_cons]
      omega

end Members

end Reader

/-! ## The members with one name -/

namespace Tree

/-- The values of the members with the given name, in the order of the members. -/
def values (name : String) (members : List (String × Tree)) : List Tree :=
  members.filterMap fun member => if member.1 = name then some member.2 else none

theorem mem_values {name : String} {members : List (String × Tree)} {tree : Tree} :
    tree ∈ values name members ↔ (name, tree) ∈ members := by
  simp only [values, List.mem_filterMap, Option.ite_none_right_eq_some, Option.some.injEq]
  constructor
  · rintro ⟨member, hmem, rfl, rfl⟩
    exact hmem
  · exact fun hmem => ⟨_, hmem, rfl, rfl⟩

theorem values_cons_self (name : String) (value : Tree) (members : List (String × Tree)) :
    values name ((name, value) :: members) = value :: values name members := by
  simp [values]

theorem values_cons_of_ne {name other : String} (h : other ≠ name) (value : Tree)
    (members : List (String × Tree)) :
    values name ((other, value) :: members) = values name members := by
  simp [values, h]

theorem values_append (name : String) (before after : List (String × Tree)) :
    values name (before ++ after) = values name before ++ values name after :=
  List.filterMap_append

theorem values_insert {name other : String} (h : other ≠ name) (value : Tree)
    (before after : List (String × Tree)) :
    values name (before ++ (other, value) :: after) = values name (before ++ after) := by
  rw [values_append, values_cons_of_ne h, ← values_append]

/-- Exactly one member, of the wanted kind. -/
def Once (means : Tree → α → Prop) (values : List Tree) (content : α) : Prop :=
  ∃ tree, values = [tree] ∧ means tree content

/-- One member of the wanted kind, or none, which stands for a value of its own. -/
def AtMostOnce (means : Tree → α → Prop) (absent : α) (values : List Tree) (content : α) : Prop :=
  (values = [] ∧ content = absent) ∨ Once means values content

/-- A field without a value gets one. -/
def Sets (means : Tree → α → Prop) (before : Option α) (tree : Tree) (after : Option α) : Prop :=
  before = none ∧ ∃ content, means tree content ∧ after = some content

variable {means : Tree → α → Prop} {values : List Tree}

theorem gathers_sets_some {content : α} {after : Option α} :
    Gathers (Sets means) (some content) values after ↔ values = [] ∧ after = some content := by
  cases values with
  | nil => simp [Gathers]
  | cons tree values => simp [Gathers, Sets]

/-- **A field has a value exactly if one member gives it one**, and has none if there is no such
member. -/
theorem gathers_sets_iff {after : Option α} :
    Gathers (Sets means) none values after ↔
      (values = [] ∧ after = none) ∨
        ∃ content, Once means values content ∧ after = some content := by
  cases values with
  | nil => simp [Gathers, Once]
  | cons tree values =>
    constructor
    · rintro ⟨next, ⟨-, content, hcontent, rfl⟩, hgathers⟩
      obtain ⟨rfl, rfl⟩ := gathers_sets_some.1 hgathers
      exact .inr ⟨content, ⟨tree, rfl, hcontent⟩, rfl⟩
    · rintro (⟨⟨⟩, -⟩ | ⟨content, ⟨_, heq, hcontent⟩, rfl⟩)
      cases heq
      exact ⟨some content, ⟨rfl, content, hcontent, rfl⟩, gathers_sets_some.2 ⟨rfl, rfl⟩⟩

theorem once_iff {content : α} :
    Once means values content ↔ Gathers (Sets means) none values (some content) := by
  rw [gathers_sets_iff]
  simp

theorem atMostOnce_iff {absent content : α} :
    AtMostOnce means absent values content ↔
      ∃ found, Gathers (Sets means) none values found ∧ found.getD absent = content := by
  constructor
  · rintro (⟨h, rfl⟩ | h)
    · exact ⟨none, gathers_sets_iff.2 (.inl ⟨h, rfl⟩), rfl⟩
    · exact ⟨some content, once_iff.1 h, rfl⟩
  · rintro ⟨found, h, rfl⟩
    obtain ⟨hnone, rfl⟩ | ⟨content, honce, rfl⟩ := gathers_sets_iff.1 h
    · exact .inl ⟨hnone, rfl⟩
    · exact .inr honce

end Tree

/-! ## Records -/

namespace Record

variable {Field : Type} {record : Record Field α} [DecidableEq Field]

/-- What one member does to a draft. -/
def Takes (record : Record Field α)
    (means : (field : Field) → Tree → record.Content field → Prop) (draft : record.Draft)
    (member : String × Tree) (next : record.Draft) : Prop :=
  match record.field? member.1 with
  | some field =>
    draft field = none ∧ ∃ content, means field member.2 content ∧
      next = record.fill draft field content
  | none => record.isClosed = false ∧ next = draft

/-- What an object means as a record, given what the fields mean. -/
def IsRecord (record : Record Field α)
    (means : (field : Field) → Tree → record.Content field → Prop) (tree : Tree) (value : α) :
    Prop :=
  ∃ members, tree = .object members ∧
    (record.isClosed = true → ∀ member ∈ members, ∃ field, record.label field = member.1) ∧
    ∃ draft : record.Draft, (∀ field, Gathers (Tree.Sets (means field)) none
      (Tree.values (record.label field) members) (draft field)) ∧
      record.assemble draft = .ok value

variable {means : (field : Field) → Tree → record.Content field → Prop}

theorem decides_readMember {member : String × Tree}
    (hmeans : ∀ field, record.field? member.1 = some field →
      (record.decoder field).ofText.Decides member.2.render (means field member.2))
    (draft : record.Draft) :
    (record.readMember draft member.1).Decides (':' :: member.2.render)
      (record.Takes means draft member) := by
  intro rest hrest next left
  have hcolon : Reader.colon (':' :: member.2.render ++ rest) = .ok ((), member.2.render ++ rest) :=
    rfl
  unfold readMember Takes
  cases hfield : record.field? member.1 with
  | none =>
    dsimp only
    cases record.isClosed with
    | true =>
      rw [if_pos rfl]
      exact iff_of_false (Reader.complainAfter_ne_ok _ _ _ _) (by rintro ⟨⟨⟨⟩, _⟩, _⟩)
    | false =>
      rw [if_neg Bool.false_ne_true, Reader.bind_of_ok hcolon,
        Reader.bind_of_ok (Reader.pass_render member.2 rest hrest), Reader.pure_apply]
      simp [eq_comm]
  | some field =>
    dsimp only
    have hvalue := hmeans field hfield rest hrest
    cases hdraft : draft field with
    | some content =>
      rw [Option.isSome_some, if_pos rfl]
      exact iff_of_false (Reader.complainAfter_ne_ok _ _ _ _) (by rintro ⟨⟨⟨⟩, _⟩, _⟩)
    | none =>
      rw [Option.isSome_none, if_neg Bool.false_ne_true, Reader.bind_of_ok hcolon,
        Reader.bind_eq_ok_iff]
      constructor
      · rintro ⟨content, after, hread, hlast⟩
        obtain ⟨hcontent, rfl⟩ := (hvalue content after).1 hread
        cases hlast
        exact ⟨⟨rfl, content, hcontent, rfl⟩, rfl⟩
      · rintro ⟨⟨-, content, hcontent, rfl⟩, rfl⟩
        exact ⟨content, _, (hvalue content _).2 ⟨hcontent, rfl⟩, rfl⟩

/-- **Gathering members is gathering the members of each field on their own**, and in a closed
record all members are those of fields. -/
theorem gathers_takes_iff (h : record.TellsFields) {members : List (String × Tree)}
    {start final : record.Draft} :
    Gathers (record.Takes means) start members final ↔
      (record.isClosed = true → ∀ member ∈ members, ∃ field, record.label field = member.1) ∧
      ∀ field, Gathers (Tree.Sets (means field)) (start field)
        (Tree.values (record.label field) members) (final field) := by
  induction members generalizing start with
  | nil =>
    simp only [Gathers, Tree.values, List.filterMap_nil, List.not_mem_nil, false_imp_iff,
      implies_true, true_and]
    exact ⟨fun heq field => by rw [heq], funext⟩
  | cons member members ih =>
    obtain ⟨name, value⟩ := member
    cases hfield : record.field? name with
    | none =>
      have hname : ∀ field, name ≠ record.label field := by
        rintro field rfl
        rw [h.field?_label] at hfield
        cases hfield
      have hvalues : ∀ field, Tree.values (record.label field) ((name, value) :: members) =
          Tree.values (record.label field) members := fun field =>
        Tree.values_cons_of_ne (hname field) value members
      simp only [Gathers, Takes, hfield, hvalues]
      constructor
      · rintro ⟨_, ⟨hopen, rfl⟩, hgathers⟩
        exact ⟨fun hclosed => absurd hclosed (by simp [hopen]), (ih.1 hgathers).2⟩
      · rintro ⟨hknown, hfields⟩
        have hopen : record.isClosed = false := by
          cases hclosed : record.isClosed with
          | false => rfl
          | true =>
            obtain ⟨field, heq⟩ := hknown hclosed (name, value) List.mem_cons_self
            exact absurd heq.symm (hname field)
        exact ⟨start, ⟨hopen, rfl⟩, ih.2 ⟨fun hclosed => absurd hclosed (by simp [hopen]), hfields⟩⟩
    | some field =>
      obtain rfl := label_of_field? hfield
      have hother : ∀ other, other ≠ field → Tree.values (record.label other)
          ((record.label field, value) :: members) = Tree.values (record.label other) members :=
        fun other hne =>
          Tree.values_cons_of_ne (fun heq => hne (h.label_inj heq.symm)) value members
      simp only [Gathers, Takes, hfield]
      constructor
      · rintro ⟨_, ⟨hempty, content, hcontent, rfl⟩, hgathers⟩
        obtain ⟨hknown, hfields⟩ := ih.1 hgathers
        refine ⟨fun hclosed => List.forall_mem_cons.2 ⟨⟨field, rfl⟩, hknown hclosed⟩, ?_⟩
        intro other
        have hrest := hfields other
        by_cases heq : other = field
        · subst heq
          rw [fill_self] at hrest
          rw [Tree.values_cons_self]
          exact ⟨_, ⟨hempty, content, hcontent, rfl⟩, hrest⟩
        · rw [fill_of_ne start heq] at hrest
          rw [hother other heq]
          exact hrest
      · rintro ⟨hknown, hfields⟩
        have hself := hfields field
        rw [Tree.values_cons_self] at hself
        obtain ⟨_, ⟨hempty, content, hcontent, rfl⟩, hrest⟩ := hself
        refine ⟨_, ⟨hempty, content, hcontent, rfl⟩, ih.2 ⟨?_, ?_⟩⟩
        · exact fun hclosed => (List.forall_mem_cons.1 (hknown hclosed)).2
        · intro other
          by_cases heq : other = field
          · subst heq
            rw [fill_self]
            exact hrest
          · rw [fill_of_ne start heq, ← hother other heq]
            exact hfields other

/-- **An object is read as the record that it means.** -/
theorem decides_record (h : record.TellsFields) {tree : Tree}
    (hshape : ∀ elements, tree ≠ .array elements)
    (hmeans : ∀ members, tree = .object members → ∀ member ∈ members, ∀ field,
      record.field? member.1 = some field →
      (record.decoder field).ofText.Decides member.2.render (means field member.2)) :
    record.toDecoder.ofText.Decides tree.render (record.IsRecord means tree) := by
  cases tree with
  | object members =>
    intro rest _ value left
    have hmembers : ∀ draft left, Reader.members record.readMember record.blank
        (commaSeparated (members.map Tree.renderMember) ++ '\x7d' :: rest) = .ok (draft, left) ↔
          Gathers (record.Takes means) record.blank members draft ∧ left = '\x7d' :: rest :=
      Reader.members_iff
        (fun member hmem => decides_readMember (hmeans members rfl member hmem)) rest record.blank
    rw [Tree.render_object]
    show record.readObject _ = _ ↔ _
    rw [readObject, Reader.bind_eq_ok_iff]
    constructor
    · rintro ⟨draft, after, hread, hlast⟩
      obtain ⟨hgathers, rfl⟩ := (hmembers draft after).1 hread
      obtain ⟨hknown, hfields⟩ := (gathers_takes_iff h).1 hgathers
      cases hassemble : record.assemble draft with
      | error field =>
        rw [hassemble] at hlast
        exact absurd hlast (Reader.complainAfter_ne_ok _ _ _ _)
      | ok assembled =>
        rw [hassemble] at hlast
        cases hlast
        exact ⟨⟨members, rfl, hknown, draft, hfields, hassemble⟩, rfl⟩
    · rintro ⟨⟨_, heq, hknown, draft, hfields, hassemble⟩, rfl⟩
      cases heq
      refine ⟨draft, _, (hmembers draft _).2 ⟨(gathers_takes_iff h).2 ⟨hknown, hfields⟩, rfl⟩, ?_⟩
      rw [hassemble]
      rfl
  | array elements => exact absurd rfl (hshape elements)
  | _ =>
    unfold toDecoder
    dsimp only
    refine Reader.decides_of_opens ?_ (by rintro _ ⟨_, ⟨⟩, _⟩)
    intro c others result hopens
    have hbracket := hopens.ne '[' (by rw [Tree.Opens]; decide)
    have hbrace := hopens.ne '\x7b' (by rw [Tree.Opens]; decide)
    split
    · next heq => exact absurd (List.cons.inj heq).1 hbracket
    · next heq => exact absurd (List.cons.inj heq).1 hbrace
    · exact Reader.mistyped_ne_ok _ _ _

end Record

end SchemaScalar.Json
