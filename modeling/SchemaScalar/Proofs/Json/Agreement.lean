import Mathlib.Data.List.DropRight
import SchemaScalar.Proofs.Json.Document
import SchemaScalar.Proofs.Json.Record

/-!
# Texts are read as documents are taken

The two halves of a decoder see different things: one goes along a text, the other takes a value in
which members come sorted, each key once. Between them stands the document with its members as they
are in the text. A text that holds a document is read exactly if the document is taken, as the same
value and up to the same place (`ReadsDocuments`). The decoders for scalar values are of this kind,
and so are closed records of them.
-/

namespace SchemaScalar.Json

variable {α : Type}

open Reader (DocumentAt ElementsAt MembersAt documentWithin isBlank)

/-- Whether a decoder reads a text that holds a document exactly if it takes the document. -/
def Decoder.ReadsDocuments (decoder : Decoder α) : Prop :=
  ∀ levels text document rest, documentWithin levels text = .ok (document, rest) →
    ∀ value left, decoder.ofText text = .ok (value, left) ↔
      decoder.ofJson document = .ok value ∧ left = rest

namespace Reader

theorem present_of_dropWhile {reader : Reader α} {text after : List Char} {c : Char}
    (h : text.dropWhile isBlank = c :: after) : present reader text = reader (c :: after) := by
  rw [present, h]

/-- Blanks before a document are no part of it. -/
theorem documentWithin_dropWhile (levels : Nat) (text : List Char) :
    documentWithin levels (text.dropWhile isBlank) = documentWithin levels text := by
  rw [documentWithin, documentWithin, List.dropWhile_idempotent]

end Reader

namespace Decoder

/-- A decoder that passes over blanks is judged by what comes after them. -/
theorem readsDocuments_present {reader : Reader α} {take : Json → Except Complaint α}
    (h : ∀ c after document rest, DocumentAt c after document rest → ∀ value left,
      reader (c :: after) = .ok (value, left) ↔ take document = .ok value ∧ left = rest) :
    ReadsDocuments ⟨.present reader, take⟩ := by
  intro levels text document rest hdocument value left
  obtain ⟨c, after, htext, hat⟩ := Reader.documentAt_of_documentWithin hdocument
  dsimp only
  rw [Reader.present_of_dropWhile htext]
  exact h c after document rest hat value left

/-- Both halves refuse what is of another kind. -/
theorem refused_iff {read : Except Fault (α × List Char)} {taken : Except Complaint α}
    (hread : ∀ result, read ≠ .ok result) (htaken : ∀ value, taken ≠ .ok value) (value : α)
    (left rest : List Char) : read = .ok (value, left) ↔ taken = .ok value ∧ left = rest :=
  iff_of_false (hread _) fun h => htaken value h.1

/-! ## Scalar values -/

theorem readsDocuments_string : string.ReadsDocuments := by
  refine readsDocuments_present ?_
  intro c after document rest hat value left
  cases hat with
  | string hread =>
    show Reader.quotedRest after = _ ↔ _
    rw [hread]
    simp [eq_comm]
  | number hc _ =>
    have hquote := ne_of_numeral hc '"' (by decide)
    refine refused_iff ?_ (by rintro _ ⟨⟩) value left rest
    split
    · next heq => exact absurd (List.cons.inj heq).1 hquote
    · exact Reader.mistyped_ne_ok _ _
  | _ => exact refused_iff (Reader.mistyped_ne_ok _ _) (by rintro _ ⟨⟩) value left rest

theorem readsDocuments_unit : unit.ReadsDocuments := by
  refine readsDocuments_present ?_
  intro c after document rest hat value left
  cases hat with
  | null hread =>
    show Reader.word _ after = _ ↔ _
    rw [hread]
    simp [eq_comm]
  | number hc _ =>
    have hletter := ne_of_numeral hc 'n' (by decide)
    refine refused_iff ?_ (by rintro _ ⟨⟩) value left rest
    split
    · next heq => exact absurd (List.cons.inj heq).1 hletter
    · exact Reader.mistyped_ne_ok _ _
  | _ => exact refused_iff (Reader.mistyped_ne_ok _ _) (by rintro _ ⟨⟩) value left rest

theorem readsDocuments_int64 : int64.ReadsDocuments := by
  refine readsDocuments_present ?_
  intro c after document rest hat value left
  cases hat with
  | number hc hread =>
    dsimp only
    rw [if_pos hc, Reader.bind_of_ok hread]
    exact Reader.ofExcept_eq_ok_iff
  | _ => exact refused_iff (Reader.mistyped_ne_ok _ _) (by rintro _ ⟨⟩) value left rest

/-- What is read after blanks, if it is not `null`. -/
theorem optional_ofText {inner : Decoder α} {text after : List Char} {c : Char}
    (htext : text.dropWhile isBlank = c :: after) (hc : c ≠ 'n') :
    (optional inner).ofText text = (some <$> inner.ofText) (c :: after) := by
  simp only [optional, htext]
  split
  · next heq => exact absurd (List.cons.inj heq).1 hc
  · rfl

/-- What is taken of a document that is not `null`. -/
theorem optional_ofJson {inner : Decoder α} {document : Json} (h : document ≠ .null)
    {value : Option α} :
    (optional inner).ofJson document = .ok value ↔
      ∃ content, inner.ofJson document = .ok content ∧ value = some content := by
  have htake : (optional inner).ofJson document = some <$> inner.ofJson document := by
    cases document with
    | null => exact absurd rfl h
    | _ => rfl
  rw [htake]
  cases inner.ofJson document with
  | error what => exact iff_of_false (by rintro ⟨⟩) (by rintro ⟨_, ⟨⟩, _⟩)
  | ok content =>
    constructor
    · rintro ⟨⟩
      exact ⟨content, rfl, rfl⟩
    · rintro ⟨_, ⟨⟩, rfl⟩
      rfl

theorem readsDocuments_optional {inner : Decoder α} (h : inner.ReadsDocuments) :
    (optional inner).ReadsDocuments := by
  intro levels text document rest hdocument value left
  obtain ⟨c, after, htext, hat⟩ := Reader.documentAt_of_documentWithin hdocument
  rw [← Reader.documentWithin_dropWhile, htext] at hdocument
  have hinner := h levels (c :: after) document rest hdocument
  have hpresent (hc : c ≠ 'n') (hdoc : document ≠ .null) :
      (optional inner).ofText text = .ok (value, left) ↔
        (optional inner).ofJson document = .ok value ∧ left = rest := by
    rw [optional_ofText htext hc, Reader.map_eq_ok_iff, optional_ofJson hdoc]
    constructor
    · rintro ⟨content, hread, rfl⟩
      obtain ⟨htaken, rfl⟩ := (hinner content left).1 hread
      exact ⟨⟨content, htaken, rfl⟩, rfl⟩
    · rintro ⟨⟨content, htaken, rfl⟩, rfl⟩
      exact ⟨content, (hinner content left).2 ⟨htaken, rfl⟩, rfl⟩
  cases hat with
  | null hword =>
    have hread : (optional inner).ofText text = .ok (none, rest) := by
      simp only [optional, htext]
      exact (Reader.bind_of_ok hword).trans rfl
    rw [hread]
    constructor
    · rintro ⟨⟩
      exact ⟨rfl, rfl⟩
    · rintro ⟨⟨⟩, rfl⟩
      rfl
  | number hc _ => exact hpresent (ne_of_numeral hc 'n' (by decide)) (by rintro ⟨⟩)
  | _ => exact hpresent (by decide) (by rintro ⟨⟩)

/-! ## Choices -/

end Decoder

namespace Reader

/-- **What stands where the next key is looked for**: the closing brace, which is left, or a first
key, or the comma before another one. -/
theorem nextKey_eq_ok {isFirst : Bool} {text left : List Char} {key? : Option String}
    (h : nextKey isFirst text = .ok (key?, left)) :
    ∃ c rest, text.dropWhile isBlank = c :: rest ∧
      (c = '\x7d' ∧ key? = none ∧ left = c :: rest ∨
        (isFirst = true ∧ c = '"' ∧
          ∃ name, key? = some name ∧ quotedRest rest = .ok (name, left)) ∨
        isFirst = false ∧ c = ',' ∧ key? ≠ none) := by
  unfold nextKey at h
  split at h
  · cases h
  · next c rest htext =>
    refine ⟨c, rest, htext, ?_⟩
    by_cases hbrace : c = '\x7d'
    · rw [if_pos hbrace] at h
      cases h
      exact .inl ⟨hbrace, rfl, rfl⟩
    rw [if_neg hbrace] at h
    cases isFirst with
    | true =>
      obtain ⟨name, hkey, rfl⟩ := map_eq_ok_iff.1 h
      unfold key at hkey
      split at hkey
      · next heq =>
        cases heq
        exact .inr (.inl ⟨rfl, rfl, name, rfl, hkey⟩)
      · cases hkey
    | false =>
      rw [if_neg Bool.false_ne_true] at h
      by_cases hcomma : c = ','
      · refine .inr (.inr ⟨rfl, hcomma, ?_⟩)
        rintro rfl
        rw [if_pos hcomma] at h
        split at h
        · cases h
        · split at h
          · cases h
          · obtain ⟨_, _, ⟨⟩⟩ := map_eq_ok_iff.1 h
      · rw [if_neg hcomma] at h
        cases h

end Reader

namespace Decoder

variable (choices : List (String × α))

theorem choiceKey_ne_ok {text left : List Char} (h : Reader.nextKey true text = .ok (none, left))
    (result : α × List Char) : choiceKey choices text ≠ .ok result := by
  obtain ⟨c, rest, htext, ⟨rfl, -, -⟩ | ⟨-, -, _, ⟨⟩, -⟩ | ⟨⟨⟩, -, -⟩⟩ := Reader.nextKey_eq_ok h
  unfold choiceKey
  rw [htext]
  rintro ⟨⟩

theorem choiceName_iff_of_quoted {text next : List Char} {name : String}
    (h : Reader.quotedRest text = .ok (name, next)) (value : α) (left : List Char) :
    choiceName choices text = .ok (value, left) ↔
      choose choices name = .ok value ∧ left = next := by
  rw [choiceName, Reader.bind_of_ok h]
  exact Reader.ofExcept_eq_ok_iff

theorem choiceKey_iff {text next : List Char} {name : String}
    (h : Reader.nextKey true text = .ok (some name, next)) (value : α) (left : List Char) :
    choiceKey choices text = .ok (value, left) ↔ choose choices name = .ok value ∧ left = next := by
  obtain ⟨c, rest, htext, ⟨-, ⟨⟩, -⟩ | ⟨-, rfl, _, ⟨⟩, hname⟩ | ⟨⟨⟩, -, -⟩⟩ :=
    Reader.nextKey_eq_ok h
  unfold choiceKey
  rw [htext]
  exact choiceName_iff_of_quoted choices hname value left

/-- An object is closed after a single member if no other one follows. -/
theorem closeSingle_at {levels : Nat} {text final rest : List Char} {members : List (String × Json)}
    (hmembers : MembersAt levels false text members final)
    (hend : Reader.endObject final = .ok ((), rest)) (left : List Char) :
    closeSingle text = .ok ((), left) ↔ members = [] ∧ left = rest := by
  cases hmembers with
  | none hnone =>
    obtain ⟨c, after, htext, ⟨rfl, -, rfl⟩ | ⟨⟨⟩, -, -⟩ | ⟨-, -, hsome⟩⟩ :=
      Reader.nextKey_eq_ok hnone
    case none.inr.inr => exact absurd rfl hsome
    cases hend
    unfold closeSingle
    rw [htext]
    dsimp only
    simp [eq_comm]
  | more hkey _ _ _ =>
    obtain ⟨c, after, htext, ⟨-, ⟨⟩, -⟩ | ⟨⟨⟩, -, -⟩ | ⟨-, rfl, -⟩⟩ := Reader.nextKey_eq_ok hkey
    unfold closeSingle
    rw [htext]
    exact iff_of_false (by rintro ⟨⟩) (by rintro ⟨⟨⟩, _⟩)

/-- What is taken of an object as a choice. -/
theorem choice_ofJson_object {members : List (String × Json)} {value : α} :
    (choice choices).ofJson (.object members) = .ok value ↔
      ∃ name inner, members = [(name, inner)] ∧ choose choices name = .ok value ∧
        unit.ofJson inner = .ok () := by
  cases members with
  | nil => exact iff_of_false (by rintro ⟨⟩) (by rintro ⟨_, _, ⟨⟩, _⟩)
  | cons member others =>
    obtain ⟨name, inner⟩ := member
    cases others with
    | cons other others => exact iff_of_false (by rintro ⟨⟩) (by rintro ⟨_, _, ⟨⟩, _⟩)
    | nil =>
      constructor
      · intro h
        obtain ⟨chosen, hchosen, h⟩ := exists_of_bind_eq_ok h
        obtain ⟨_, hnull, h⟩ := exists_of_bind_eq_ok h
        cases h
        exact ⟨name, inner, rfl, hchosen, hnull⟩
      · rintro ⟨_, _, ⟨⟩, hchosen, hnull⟩
        simp only [choice, hchosen, hnull, bind, Except.bind]
        rfl

theorem choiceMember_at {levels : Nat} {text final rest : List Char}
    {members : List (String × Json)} (hmembers : MembersAt levels true text members final)
    (hend : Reader.endObject final = .ok ((), rest)) (value : α) (left : List Char) :
    choiceMember choices text = .ok (value, left) ↔
      (choice choices).ofJson (.object members) = .ok value ∧ left = rest := by
  rw [choice_ofJson_object choices]
  cases hmembers with
  | none hnone =>
    refine iff_of_false ?_ (by rintro ⟨⟨_, _, ⟨⟩, _⟩, _⟩)
    intro h
    obtain ⟨_, _, hkey, -⟩ := Reader.bind_eq_ok_iff.1 h
    exact choiceKey_ne_ok choices hnone _ hkey
  | more hkey hcolon hvalue hothers =>
    have hchosen := choiceKey_iff choices hkey
    have hnull := readsDocuments_unit _ _ _ _ hvalue ()
    have hclose := closeSingle_at hothers hend
    constructor
    · intro h
      obtain ⟨chosen, _, hread, h⟩ := Reader.bind_eq_ok_iff.1 h
      obtain ⟨hname, rfl⟩ := (hchosen _ _).1 hread
      obtain ⟨_, _, hread, h⟩ := Reader.bind_eq_ok_iff.1 h
      cases hcolon.symm.trans hread
      obtain ⟨_, _, hread, h⟩ := Reader.bind_eq_ok_iff.1 h
      obtain ⟨hunit, rfl⟩ := (hnull _).1 hread
      obtain ⟨_, _, hread, h⟩ := Reader.bind_eq_ok_iff.1 h
      obtain ⟨rfl, rfl⟩ := (hclose _).1 hread
      cases h
      exact ⟨⟨_, _, rfl, hname, hunit⟩, rfl⟩
    · rintro ⟨⟨_, _, heq, hname, hunit⟩, rfl⟩
      cases heq
      refine Reader.bind_eq_ok_iff.2 ⟨value, _, (hchosen _ _).2 ⟨hname, rfl⟩, ?_⟩
      refine Reader.bind_eq_ok_iff.2 ⟨(), _, hcolon, ?_⟩
      refine Reader.bind_eq_ok_iff.2 ⟨(), _, (hnull _).2 ⟨hunit, rfl⟩, ?_⟩
      exact Reader.bind_eq_ok_iff.2 ⟨(), _, (hclose _).2 ⟨rfl, rfl⟩, rfl⟩

theorem readsDocuments_choice : (choice choices).ReadsDocuments := by
  refine readsDocuments_present ?_
  intro c after document rest hat value left
  cases hat with
  | string hread => exact choiceName_iff_of_quoted choices hread value left
  | object hmembers _ hend => exact choiceMember_at choices hmembers hend value left
  | number hc _ =>
    have hquote := ne_of_numeral hc '"' (by decide)
    have hbrace := ne_of_numeral hc '\x7b' (by decide)
    refine refused_iff ?_ (by rintro _ ⟨⟩) value left rest
    split
    · next heq => exact absurd (List.cons.inj heq).1 hquote
    · next heq => exact absurd (List.cons.inj heq).1 hbrace
    · rintro _ ⟨⟩
  | _ => exact refused_iff (by rintro _ ⟨⟩) (by rintro _ ⟨⟩) value left rest

end Decoder

/-! ## Arrays -/

namespace Reader

/-- **What stands where the next element is looked for**: the closing bracket, which is left, or
something else. -/
theorem nextElement_eq_ok {isFirst more : Bool} {text left : List Char}
    (h : nextElement isFirst text = .ok (more, left)) :
    ∃ c rest, text.dropWhile isBlank = c :: rest ∧
      (c = ']' ∧ more = false ∧ left = c :: rest ∨ c ≠ ']' ∧ more = true) := by
  unfold nextElement at h
  split at h
  · cases h
  · next c rest htext =>
    refine ⟨c, rest, htext, ?_⟩
    by_cases hbracket : c = ']'
    · rw [if_pos hbracket] at h
      cases h
      exact .inl ⟨hbracket, rfl, rfl⟩
    · refine .inr ⟨hbracket, ?_⟩
      rw [if_neg hbracket] at h
      split at h
      · cases h; rfl
      · split at h
        · split at h
          · cases h
          · split at h
            · cases h
            · cases h; rfl
        · cases h

/-- The array ends where the elements do. -/
theorem endArray_of_nextElement {isFirst : Bool} {text left : List Char}
    (h : nextElement isFirst text = .ok (false, left)) : endArray text = endArray left := by
  obtain ⟨c, rest, htext, ⟨rfl, -, rfl⟩ | ⟨-, ⟨⟩⟩⟩ := nextElement_eq_ok h
  unfold endArray
  rw [htext]
  rfl

/-- Where another element stands, the array does not end. -/
theorem endArray_ne_ok {isFirst : Bool} {text next : List Char}
    (h : nextElement isFirst text = .ok (true, next)) (result : Unit × List Char) :
    endArray text ≠ .ok result := by
  obtain ⟨c, rest, htext, ⟨-, ⟨⟩, -⟩ | ⟨hbracket, -⟩⟩ := nextElement_eq_ok h
  unfold endArray
  rw [htext]
  dsimp only
  rw [if_neg hbracket]
  split
  · split <;> rintro ⟨⟩
  · rintro ⟨⟩

end Reader

namespace Record

variable {Field : Type} {record : Record Field α} [DecidableEq Field]

/-! ## Records as arrays -/

theorem takePositions_nil (fields : List Field) (draft : record.Draft) :
    record.takePositions fields [] draft = .ok draft := by
  cases fields <;> rfl

/-- Elements that are at their end leave the draft as it is. -/
theorem readPositions_end {fields : List Field} {count : Nat} {draft : record.Draft}
    {text stop rest : List Char}
    (hread : record.readPositions fields count draft text = .ok ((count, draft), stop))
    (hend : Reader.endArray stop = .ok ((), rest)) (next : record.Draft) (left : List Char) :
    (∃ total after, record.readPositions fields count draft text = .ok ((total, next), after) ∧
        Reader.endArray after = .ok ((), left)) ↔
      record.takePositions fields [] draft = .ok next ∧ left = rest := by
  rw [hread, takePositions_nil]
  constructor
  · rintro ⟨_, _, ⟨⟩, h⟩
    cases hend.symm.trans h
    exact ⟨rfl, rfl⟩
  · rintro ⟨⟨⟩, rfl⟩
    exact ⟨count, stop, rfl, hend⟩

/-- An element is read as the field that is due, then the others as the fields after it. -/
theorem readPositions_more {field : Field} {fields : List Field} {count : Nat}
    {text inner after : List Char} {element : Json}
    (hnext : Reader.nextElement (count == 0) text = .ok (true, inner))
    (helement : ∀ content left, (record.decoder field).ofText inner = .ok (content, left) ↔
      (record.decoder field).ofJson element = .ok content ∧ left = after)
    (draft : record.Draft) (result : (Nat × record.Draft) × List Char) :
    record.readPositions (field :: fields) count draft text = .ok result ↔
      ∃ content, (record.decoder field).ofJson element = .ok content ∧
        record.readPositions fields (count + 1) (record.fill draft field content) after =
          .ok result := by
  rw [readPositions, Reader.bind_of_ok hnext, if_pos rfl, Reader.bind_eq_ok_iff]
  constructor
  · rintro ⟨content, _, hcontent, hothers⟩
    obtain ⟨htaken, rfl⟩ := (helement _ _).1 hcontent
    exact ⟨content, htaken, hothers⟩
  · rintro ⟨content, htaken, hothers⟩
    exact ⟨content, after, (helement _ _).2 ⟨htaken, rfl⟩, hothers⟩

/-- **Elements are read as fields as they are taken**, and the array ends behind them unless there
are more of them than fields. -/
theorem readPositions_at (hdecoder : ∀ field, (record.decoder field).ReadsDocuments)
    {levels : Nat} {text final rest : List Char} {elements : List Json} {count : Nat}
    (helements : ElementsAt levels (count == 0) text elements final)
    (hend : Reader.endArray final = .ok ((), rest)) (fields : List Field)
    (draft next : record.Draft) (left : List Char) :
    (∃ total after, record.readPositions fields count draft text = .ok ((total, next), after) ∧
        Reader.endArray after = .ok ((), left)) ↔
      record.takePositions fields elements draft = .ok next ∧ elements.length ≤ fields.length ∧
        left = rest := by
  -- on the fields: where they run out first, the end of the array is not reached
  induction fields generalizing elements count draft text with
  | nil =>
    cases helements with
    | none hnone =>
      have hlast := (Reader.endArray_of_nextElement hnone).trans hend
      rw [readPositions_end rfl hlast]
      simp
    | more hnext _ _ =>
      refine iff_of_false ?_ (by rintro ⟨_, hlength, _⟩; exact absurd hlength (by simp))
      rintro ⟨_, _, ⟨⟩, h⟩
      exact Reader.endArray_ne_ok hnext _ h
  | cons field fields ih =>
    cases helements with
    | none hnone =>
      have hread : record.readPositions (field :: fields) count draft text =
          .ok ((count, draft), final) := by
        rw [readPositions, Reader.bind_of_ok hnone]
        rfl
      rw [readPositions_end hread hend]
      simp
    | more hnext helement hothers =>
      have hcount : ((count + 1 == 0) : Bool) = false := by simp
      have hrest := fun filled => ih (hcount ▸ hothers) filled
      have hvalue := hdecoder field _ _ _ _ helement
      simp only [readPositions_more hnext hvalue, takePositions, ok_of_bind_iff, List.length_cons,
        Nat.add_le_add_iff_right]
      constructor
      · rintro ⟨total, stop, ⟨content, hcontent, hread⟩, hclose⟩
        obtain ⟨htaken, hlength⟩ := (hrest _).1 ⟨total, stop, hread, hclose⟩
        exact ⟨⟨content, hcontent, htaken⟩, hlength⟩
      · rintro ⟨⟨content, hcontent, htaken⟩, hlength⟩
        obtain ⟨total, stop, hread, hclose⟩ := (hrest _).2 ⟨htaken, hlength⟩
        exact ⟨total, stop, ⟨content, hcontent, hread⟩, hclose⟩

theorem takeArray_eq_ok_iff {elements : List Json} {value : α} :
    record.takeArray elements = .ok value ↔
      ∃ draft, record.takePositions record.fields elements record.blank = .ok draft ∧
        record.assemble draft = .ok value ∧ elements.length ≤ record.fields.length := by
  rw [takeArray, ok_of_bind_iff]
  refine exists_congr fun draft => and_congr_right fun _ => ?_
  cases record.assemble draft with
  | error field => exact iff_of_false (by rintro ⟨⟩) (by rintro ⟨⟨⟩, _⟩)
  | ok assembled =>
    dsimp only
    by_cases hlength : elements.length ≤ record.fields.length
    · rw [if_pos hlength]
      constructor
      · rintro ⟨⟩
        exact ⟨rfl, hlength⟩
      · rintro ⟨⟨⟩, _⟩
        rfl
    · rw [if_neg hlength]
      exact iff_of_false (by rintro ⟨⟩) fun h => hlength h.2

/-- What is read of an array after its opening bracket. -/
theorem readArray_at (hdecoder : ∀ field, (record.decoder field).ReadsDocuments)
    {levels : Nat} {text final rest : List Char} {elements : List Json}
    (helements : ElementsAt levels true text elements final)
    (hend : Reader.endArray final = .ok ((), rest)) (value : α) (left : List Char) :
    record.readArray text = .ok (value, left) ↔
      record.takeArray elements = .ok value ∧ left = rest := by
  have helements : ElementsAt levels ((0 : Nat) == 0) text elements final := helements
  have hpositions := fun draft =>
    readPositions_at hdecoder helements hend record.fields record.blank draft left
  rw [takeArray_eq_ok_iff, readArray, Reader.bind_eq_ok_iff]
  constructor
  · rintro ⟨⟨count, draft⟩, after, hread, h⟩
    dsimp only at h
    cases hassemble : record.assemble draft with
    | error field =>
      rw [hassemble] at h
      exact absurd h (Reader.complainAfter_ne_ok _ _ _ _)
    | ok assembled =>
      rw [hassemble] at h
      obtain ⟨_, _, hclose, ⟨⟩⟩ := Reader.bind_eq_ok_iff.1 h
      obtain ⟨htaken, hlength, rfl⟩ := (hpositions draft).1 ⟨count, after, hread, hclose⟩
      exact ⟨⟨draft, htaken, hassemble, hlength⟩, rfl⟩
  · rintro ⟨⟨draft, htaken, hassemble, hlength⟩, rfl⟩
    obtain ⟨count, after, hread, hclose⟩ := (hpositions draft).2 ⟨htaken, hlength, rfl⟩
    refine ⟨(count, draft), after, hread, ?_⟩
    dsimp only
    rw [hassemble]
    exact Reader.bind_eq_ok_iff.2 ⟨(), left, hclose, rfl⟩

/-! ## Records as objects -/

theorem readMember_at (hclosed : record.isClosed = true)
    (hdecoder : ∀ field, (record.decoder field).ReadsDocuments) {levels : Nat}
    {text inner after : List Char} {document : Json} (hcolon : Reader.colon text = .ok ((), inner))
    (hvalue : documentWithin levels inner = .ok (document, after)) (draft next : record.Draft)
    (name : String) (left : List Char) :
    record.readMember draft name text = .ok (next, left) ↔
      record.takeMember draft name document = .ok next ∧ left = after := by
  unfold readMember takeMember
  cases record.field? name with
  | none =>
    rw [hclosed]
    exact Decoder.refused_iff (Reader.complainAfter_ne_ok _ _ _) (by rintro _ ⟨⟩) _ _ _
  | some field =>
    dsimp only
    have hcontent := hdecoder field _ _ _ _ hvalue
    cases (draft field).isSome with
    | true => exact Decoder.refused_iff (Reader.complainAfter_ne_ok _ _ _) (by rintro _ ⟨⟩) _ _ _
    | false =>
      rw [if_neg Bool.false_ne_true, if_neg Bool.false_ne_true, Reader.bind_of_ok hcolon,
        Reader.bind_eq_ok_iff, ok_of_bind_iff]
      constructor
      · rintro ⟨content, _, hread, ⟨⟩⟩
        obtain ⟨htaken, rfl⟩ := (hcontent _ _).1 hread
        exact ⟨⟨content, htaken, rfl⟩, rfl⟩
      · rintro ⟨⟨content, htaken, ⟨⟩⟩, rfl⟩
        exact ⟨content, _, (hcontent _ _).2 ⟨htaken, rfl⟩, rfl⟩

/-- **Members are read one by one as they are taken.** -/
theorem membersWithin_at (hclosed : record.isClosed = true)
    (hdecoder : ∀ field, (record.decoder field).ReadsDocuments) {levels bound : Nat}
    {isFirst : Bool} {text final : List Char} {members : List (String × Json)}
    (hmembers : MembersAt levels isFirst text members final) (hbound : members.length < bound)
    (draft next : record.Draft) (left : List Char) :
    Reader.membersWithin record.readMember bound isFirst draft text = .ok (next, left) ↔
      members.foldlM (fun draft (name, value) => record.takeMember draft name value) draft =
        .ok next ∧ left = final := by
  induction hmembers generalizing bound draft with
  | none hend =>
    obtain ⟨bound, rfl⟩ : ∃ n, bound = n + 1 := ⟨bound - 1, by omega⟩
    rw [Reader.membersWithin, Reader.bind_of_ok hend]
    constructor
    · rintro ⟨⟩
      exact ⟨rfl, rfl⟩
    · rintro ⟨⟨⟩, rfl⟩
      rfl
  | more hkey hcolon hvalue hothers ih =>
    obtain ⟨bound, rfl⟩ : ∃ n, bound = n + 1 := ⟨bound - 1, by omega⟩
    have hmember := readMember_at hclosed hdecoder hcolon hvalue
    have hrest := fun next' => ih (Nat.lt_of_succ_lt_succ hbound) next'
    rw [Reader.membersWithin, Reader.bind_of_ok hkey, List.foldlM_cons, ok_of_bind_iff]
    dsimp only
    rw [Reader.bind_eq_ok_iff]
    constructor
    · rintro ⟨filled, _, hread, hlast⟩
      obtain ⟨htaken, rfl⟩ := (hmember _ _ _ _).1 hread
      obtain ⟨hfold, rfl⟩ := (hrest _).1 hlast
      exact ⟨⟨filled, htaken, hfold⟩, rfl⟩
    · rintro ⟨⟨filled, htaken, hfold⟩, rfl⟩
      exact ⟨filled, _, (hmember _ _ _ _).2 ⟨htaken, rfl⟩, (hrest _).2 ⟨hfold, rfl⟩⟩

/-- What is read of an object after its opening brace. -/
theorem readObject_at (hclosed : record.isClosed = true)
    (hdecoder : ∀ field, (record.decoder field).ReadsDocuments) {levels : Nat}
    {text final rest : List Char} {members : List (String × Json)}
    (hmembers : MembersAt levels true text members final)
    (hsize : members.length < text.length + 1) (hend : Reader.endObject final = .ok ((), rest))
    (value : α) (left : List Char) :
    record.readObject text = .ok (value, left) ↔
      record.takeObject members = .ok value ∧ left = rest := by
  have hdraft : ∀ draft after,
      Reader.members record.readMember record.blank text = .ok (draft, after) ↔ _ :=
    membersWithin_at hclosed hdecoder hmembers hsize record.blank
  rw [takeObject_eq_ok_iff, readObject, Reader.bind_eq_ok_iff]
  constructor
  · rintro ⟨draft, after, hread, h⟩
    obtain ⟨htaken, rfl⟩ := (hdraft draft after).1 hread
    cases hassemble : record.assemble draft with
    | error field =>
      rw [hassemble] at h
      exact absurd h (Reader.complainAfter_ne_ok _ _ _ _)
    | ok assembled =>
      rw [hassemble] at h
      obtain ⟨_, _, hclose, ⟨⟩⟩ := Reader.bind_eq_ok_iff.1 h
      cases hend.symm.trans hclose
      exact ⟨⟨draft, htaken, hassemble⟩, rfl⟩
  · rintro ⟨⟨draft, htaken, hassemble⟩, rfl⟩
    refine ⟨draft, final, (hdraft draft final).2 ⟨htaken, rfl⟩, ?_⟩
    rw [hassemble]
    exact Reader.bind_eq_ok_iff.2 ⟨(), left, hend, rfl⟩

theorem readsDocuments_toDecoder (hclosed : record.isClosed = true)
    (hdecoder : ∀ field, (record.decoder field).ReadsDocuments) :
    record.toDecoder.ReadsDocuments := by
  refine Decoder.readsDocuments_present ?_
  intro c after document rest hat value left
  cases hat with
  | array helements hend => exact readArray_at hdecoder helements hend value left
  | object hmembers hsize hend =>
    exact readObject_at hclosed hdecoder hmembers hsize hend value left
  | number hc _ =>
    have hbracket := ne_of_numeral hc '[' (by decide)
    have hbrace := ne_of_numeral hc '\x7b' (by decide)
    refine Decoder.refused_iff ?_ (by rintro _ ⟨⟩) value left rest
    split
    · next heq => exact absurd (List.cons.inj heq).1 hbracket
    · next heq => exact absurd (List.cons.inj heq).1 hbrace
    · exact Reader.mistyped_ne_ok _ _
  | _ => exact Decoder.refused_iff (Reader.mistyped_ne_ok _ _) (by rintro _ ⟨⟩) value left rest

end Record

/-! ## Whole texts -/

theorem Reader.whole_eq_ok_iff {reader : Reader α} {text : List Char} {value : α} :
    whole reader text = .ok value ↔
      ∃ left, reader text = .ok (value, left) ∧ left.dropWhile isBlank = [] := by
  rw [whole, bind_apply]
  cases reader text with
  | error fault => exact iff_of_false (by rintro ⟨⟩) (by rintro ⟨_, ⟨⟩, _⟩)
  | ok read =>
    obtain ⟨found, left⟩ := read
    have hafter : (blanks >>= fun _ => pure found : Reader α) left =
        .ok (found, left.dropWhile isBlank) := rfl
    dsimp only
    rw [hafter]
    cases hleft : left.dropWhile isBlank with
    | nil =>
      constructor
      · rintro ⟨⟩
        exact ⟨left, rfl, hleft⟩
      · rintro ⟨_, ⟨⟩, _⟩
        rfl
    | cons c rest =>
      refine iff_of_false (by rintro ⟨⟩) ?_
      rintro ⟨_, ⟨⟩, hnone⟩
      rw [hleft] at hnone
      cases hnone

/-- **A text is read as its document is taken.** -/
theorem Decoder.ReadsDocuments.read_iff {decoder : Decoder α} (h : decoder.ReadsDocuments)
    {text : List Char} {document : Json} (hdocument : readDocument text = .ok document) (value : α) :
    decoder.read text = .ok value ↔ decoder.ofJson document = .ok value := by
  obtain ⟨rest, hread, hblank⟩ := Reader.whole_eq_ok_iff.1 hdocument
  have hvalue := h _ _ _ _ hread
  rw [read, Reader.whole_eq_ok_iff]
  constructor
  · rintro ⟨left, htext, -⟩
    exact ((hvalue value left).1 htext).1
  · exact fun htaken => ⟨rest, (hvalue value rest).2 ⟨htaken, rfl⟩, hblank⟩

end SchemaScalar.Json
