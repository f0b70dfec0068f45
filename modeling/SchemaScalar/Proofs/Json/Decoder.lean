import SchemaScalar.Json.Decoder
import SchemaScalar.Proofs.Json.Container

/-!
# What is taken of a value is read of its text

A decoder has two halves that are defined apart. `ReadsText` says that they agree on a document:
what one half takes of the value, the other reads of the text that the printer makes of it. Each
decoder for scalar values agrees on all documents, those made from others agree where the inner ones
do.
-/

namespace SchemaScalar.Json

variable {α : Type}

/-! ## Texts with what follows them -/

theorem write_string (s : String) (rest : List Char) :
    (string s).write ++ rest = '"' :: (s.toList.flatMap escapeChar ++ '"' :: rest) := by
  rw [write, quote, List.append_assoc]
  rfl

theorem write_array (elements : List Json) (rest : List Char) :
    (array elements).write ++ rest =
      '[' :: (commaSeparated (writeElements elements) ++ ']' :: rest) := by
  rw [write, List.append_assoc]
  rfl

theorem write_object (members : List (String × Json)) (rest : List Char) :
    (object members).write ++ rest =
      '\x7b' :: (commaSeparated (writeMembers members) ++ '\x7d' :: rest) := by
  rw [write, List.append_assoc]
  rfl

/-- The text of an integer starts with a sign or a digit. -/
theorem decimal_head (n : Int) :
    ∃ c rest, Text.decimal n = c :: rest ∧ (c = '-' ∨ c.isDigit = true) := by
  unfold Text.decimal
  split
  · exact ⟨'-', _, rfl, .inl rfl⟩
  · obtain ⟨c, rest, h⟩ :=
      List.exists_cons_of_ne_nil (Nat.toDigits_ne_nil (b := 10) (n := n.natAbs))
    exact ⟨c, rest, h, .inr (Nat.isDigit_of_mem_toDigits (by decide) (by decide)
      (h ▸ List.mem_cons_self))⟩

namespace Decoder

/-- Whether a decoder reads of the text of a document what it takes of the document. -/
def ReadsText (decoder : Decoder α) (document : Json) : Prop :=
  ∀ value, decoder.ofJson document = .ok value → decoder.ofText.Reads document.write value

/-! ## Scalar values -/

theorem readsText_bool (document : Json) : bool.ReadsText document := by
  intro value h rest _
  cases document with
  | bool b =>
    cases h
    cases value <;> rw [write] <;> rfl
  | _ => cases h

theorem readsText_string (document : Json) : string.ReadsText document := by
  intro value h rest _
  cases document with
  | string s =>
    cases h
    rw [write_string]
    exact quotedRest_escaped value rest
  | _ => cases h

theorem readsText_int64 (document : Json) : int64.ReadsText document := by
  intro value h rest hrest
  cases document with
  | number number =>
    cases number with
    | integer n lower upper =>
      have hread := number_decimal n lower upper hrest
      obtain ⟨c, others, hn, hc⟩ := decimal_head n
      have hblank : Reader.isBlank c = false :=
        (isNumeric_decimal n c (hn ▸ List.mem_cons_self)).starts.1
      have htext : (Json.number (.integer n lower upper)).write = Text.decimal n := by
        rw [write]
        rfl
      have htake : Number.toInt64 (.integer n lower upper) = .ok value := h
      rw [htext]
      rw [hn, List.cons_append] at hread ⊢
      have hskip : (c :: (others ++ rest)).dropWhile Reader.isBlank = c :: (others ++ rest) :=
        List.dropWhile_cons_of_neg (by simp [hblank])
      simp only [int64, Reader.present, hskip, if_pos hc, Reader.bind_apply, hread, htake]
      rfl
    | float x => cases h
  | _ => cases h

/-! ## Choices -/

theorem choiceName_write {choices : List (String × α)} {name : String} {value : α}
    (h : choose choices name = .ok value) (rest : List Char) :
    choiceName choices (name.toList.flatMap escapeChar ++ '"' :: rest) = .ok (value, rest) := by
  rw [choiceName, Reader.bind_apply, quotedRest_escaped]
  dsimp only
  rw [h]
  rfl

theorem choiceKey_quote {choices : List (String × α)} {name : String} {value : α}
    (h : choose choices name = .ok value) (rest : List Char) :
    choiceKey choices (quote name ++ rest) = .ok (value, rest) := by
  rw [quote, List.append_assoc]
  exact choiceName_write h rest

theorem readsText_choice (choices : List (String × α)) (document : Json) :
    (choice choices).ReadsText document := by
  intro value h rest _
  cases document with
  | string name =>
    rw [write_string]
    exact choiceName_write h rest
  | object members =>
    match members, h with
    | [(name, inner)], h =>
      obtain ⟨chosen, hchosen, h⟩ := exists_of_bind_eq_ok h
      obtain ⟨_, hnull, h⟩ := exists_of_bind_eq_ok h
      cases h
      cases inner with
      | null =>
        rw [write_object, writeMembers_eq, List.map_singleton, commaSeparated, writeMember,
          List.append_assoc, write]
        show (do
          let chosen ← choiceKey choices
          Reader.colon
          unit.ofText
          closeSingle
          return chosen : Reader _) _ = _
        rw [Reader.bind_apply, choiceKey_quote hchosen]
        rfl
      | _ => cases hnull
    | [], h => cases h
    | _ :: _ :: _, h => cases h
  | _ => cases h

/-! ## Values that may be missing -/

theorem readsText_optional {inner : Decoder α} {document : Json}
    (hinner : inner.ReadsText document) :
    (optional inner).ReadsText document := by
  intro value h rest hrest
  by_cases hnull : document = .null
  · subst hnull
    cases h
    rw [write]
    rfl
  · obtain ⟨c, others, htext, hblank, -, hletter⟩ := document.write_head
    have htake : some <$> inner.ofJson document = .ok value := by
      cases document with
      | null => exact absurd rfl hnull
      | _ => exact h
    obtain ⟨content, hcontent, hvalue⟩ := exists_of_bind_eq_ok htake
    cases hvalue
    have hread := hinner content hcontent rest hrest
    rw [htext, List.cons_append] at hread ⊢
    have hskip : (c :: (others ++ rest)).dropWhile Reader.isBlank = c :: (others ++ rest) :=
      List.dropWhile_cons_of_neg (by simp [hblank])
    simp only [optional, hskip]
    split
    · next heq => exact absurd (hletter (List.cons.inj heq).1) hnull
    · rw [Reader.map_apply, hread]

/-! ## Arrays -/

theorem readsText_list {inner : Decoder α} {elements : List Json}
    (hinner : ∀ element ∈ elements, inner.ReadsText element) :
    (list inner).ReadsText (.array elements) := by
  intro values h rest _
  rw [write_array]
  have hread := Reader.elements_write hinner h rest
  show (do
    let read ← Reader.elements inner.ofText
    Reader.endArray
    return read : Reader _) _ = _
  rw [Reader.bind_apply, hread]
  rfl

/-! ## Whole texts -/

/-- A document is read back from its text if nothing else stands there. -/
theorem read_write {decoder : Decoder α} {document : Json} {value : α}
    (hread : decoder.ReadsText document) (h : decoder.ofJson document = .ok value) :
    decoder.read document.write = .ok value := by
  have htext := hread value h [] (by simp [Follows])
  rw [List.append_nil] at htext
  simp only [read, Reader.whole, Reader.bind_apply, htext]
  rfl

end Decoder

end SchemaScalar.Json
