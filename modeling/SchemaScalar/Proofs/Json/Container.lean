import SchemaScalar.Json.Container
import SchemaScalar.Proofs.Json.Lexical
import SchemaScalar.Proofs.Json.Numeral

/-!
# Containers read back

The loops over elements and over members go through what the printer puts between the brackets, one
element or member after the other, if what is read of each is what follows from its value
(`elements_write`, `members_write`). The first has no comma before it, all others have one, so each
loop is an induction over the others.
-/

namespace SchemaScalar.Json

variable {α σ : Type}

/-- Whether a reader takes a text off the front as the given value, whatever may follow it. -/
def Reader.Reads (reader : Reader α) (text : List Char) (value : α) : Prop :=
  ∀ rest, Follows rest → reader (text ++ rest) = .ok (value, rest)

theorem commaSeparated_cons (text : List Char) (texts : List (List Char)) :
    commaSeparated (text :: texts) = text ++ texts.flatMap (',' :: ·) := by
  induction texts generalizing text with
  | nil => simp [commaSeparated]
  | cons next texts ih =>
    rw [commaSeparated, ih, List.flatMap_cons, List.cons_append]
    exact List.cons_ne_nil next texts

theorem writeElements_eq (elements : List Json) : writeElements elements = elements.map write := by
  induction elements with
  | nil => rw [writeElements, List.map_nil]
  | cons element elements ih => rw [writeElements, ih, List.map_cons]

def writeMember (member : String × Json) : List Char := quote member.1 ++ ':' :: member.2.write

theorem writeMembers_eq (members : List (String × Json)) :
    writeMembers members = members.map writeMember := by
  induction members with
  | nil => rw [writeMembers, List.map_nil]
  | cons member members ih =>
    obtain ⟨name, value⟩ := member
    rw [writeMembers, ih, List.map_cons, writeMember]

/-- After an element or a member comes a comma or the bracket. -/
theorem follows_others {close : Char} (hc : close = ']' ∨ close = '\x7d') (texts : List (List Char))
    (rest : List Char) : Follows (texts.flatMap (',' :: ·) ++ close :: rest) := by
  intro c h
  cases texts with
  | nil => exact .inr ((Option.some.inj h) ▸ hc)
  | cons text texts => exact .inl (Option.some.inj h).symm

theorem length_le_others (texts : List (List Char)) :
    texts.length ≤ (texts.flatMap (',' :: ·)).length := by
  induction texts with
  | nil => exact Nat.le_refl 0
  | cons text texts ih =>
    rw [List.flatMap_cons, List.length_append, List.length_cons, List.length_cons]
    omega

/-! ## Results of several steps -/

theorem exists_of_bind_eq_ok {ε β : Type} {first : Except ε α} {next : α → Except ε β} {result : β}
    (h : first >>= next = .ok result) : ∃ value, first = .ok value ∧ next value = .ok result := by
  cases first with
  | error e => cases h
  | ok value => exact ⟨value, rfl, h⟩

theorem ok_of_bind_iff {ε β : Type} {first : Except ε α} {next : α → Except ε β} {result : β} :
    first >>= next = .ok result ↔ ∃ value, first = .ok value ∧ next value = .ok result := by
  refine ⟨exists_of_bind_eq_ok, ?_⟩
  rintro ⟨value, rfl, hnext⟩
  exact hnext

theorem toOption_eq_some_iff {ε : Type} {result : Except ε α} {value : α} :
    result.toOption = some value ↔ result = .ok value := by
  cases result <;> simp [Except.toOption]

/-- What is taken of a list is taken of its first element, then of the others. -/
theorem mapM_cons_eq_ok {take : Json → Except Complaint α} {element : Json} {elements : List Json}
    {values : List α} (h : (element :: elements).mapM take = .ok values) :
    ∃ value others, take element = .ok value ∧ elements.mapM take = .ok others ∧
      value :: others = values := by
  rw [List.mapM_cons] at h
  obtain ⟨value, hv, h⟩ := exists_of_bind_eq_ok h
  obtain ⟨others, hvs, h⟩ := exists_of_bind_eq_ok h
  exact ⟨value, others, hv, hvs, Except.ok.inj h⟩

namespace Reader

theorem map_apply {β : Type} (f : α → β) (reader : Reader α) (text : List Char) :
    (f <$> reader) text =
      match reader text with
      | .ok (value, rest) => .ok (f value, rest)
      | .error fault => .error fault := rfl

/-- The first of two readers has read something: the second goes on where it stopped. -/
theorem bind_of_ok {β : Type} {first : Reader α} {next : α → Reader β} {text left : List Char}
    {value : α} (h : first text = .ok (value, left)) :
    (first >>= next) text = next value left := by
  rw [bind_apply, h]

/-! ## Elements -/

theorem nextElement_true_cons {c : Char} (hblank : isBlank c = false) (hbracket : c ≠ ']')
    (rest : List Char) : nextElement true (c :: rest) = .ok (true, c :: rest) := by
  rw [nextElement, List.dropWhile_cons_of_neg (by simp [hblank])]
  simp [hbracket]

theorem nextElement_comma_cons {c : Char} (hblank : isBlank c = false) (hbracket : c ≠ ']')
    (rest : List Char) : nextElement false (',' :: c :: rest) = .ok (true, c :: rest) := by
  rw [nextElement, List.dropWhile_cons_of_neg (by decide)]
  simp [hblank, hbracket]

theorem nextElement_first (element : Json) (rest : List Char) :
    nextElement true (element.write ++ rest) = .ok (true, element.write ++ rest) := by
  obtain ⟨c, others, htext, hblank, hbracket, -⟩ := element.write_head
  rw [htext, List.cons_append, nextElement_true_cons hblank hbracket]

theorem nextElement_other (element : Json) (rest : List Char) :
    nextElement false (',' :: (element.write ++ rest)) = .ok (true, element.write ++ rest) := by
  obtain ⟨c, others, htext, hblank, hbracket, -⟩ := element.write_head
  rw [htext, List.cons_append, nextElement_comma_cons hblank hbracket]

section Elements

variable {item : Reader α} {take : Json → Except Complaint α}

theorem elementsWithin_end {bound : Nat} (h : 0 < bound) (isFirst : Bool) (rest : List Char) :
    elementsWithin item bound isFirst (']' :: rest) = .ok ([], ']' :: rest) := by
  cases bound with
  | zero => exact absurd h (Nat.lt_irrefl 0)
  | succ bound => rfl

/-- One element is read, then the others. -/
theorem elementsWithin_next {isFirst : Bool} {text left rest : List Char} {element : α}
    (hnext : nextElement isFirst text = .ok (true, left)) (hitem : item left = .ok (element, rest))
    (bound : Nat) :
    elementsWithin item (bound + 1) isFirst text =
      (elementsWithin item bound false >>= fun others => pure (element :: others)) rest := by
  rw [elementsWithin, bind_apply, hnext]
  simp only [if_true, bind_apply, hitem]

theorem elementsWithin_others {elements : List Json} {values : List α}
    (hitem : ∀ element ∈ elements, ∀ value, take element = .ok value →
      item.Reads element.write value)
    (htake : elements.mapM take = .ok values) {bound : Nat} (hbound : elements.length < bound)
    (rest : List Char) :
    elementsWithin item bound false ((elements.map write).flatMap (',' :: ·) ++ ']' :: rest) =
      .ok (values, ']' :: rest) := by
  induction elements generalizing values bound with
  | nil =>
    cases htake
    exact elementsWithin_end hbound false rest
  | cons element elements ih =>
    obtain ⟨value, values, hv, hvs, rfl⟩ := mapM_cons_eq_ok htake
    obtain ⟨bound, rfl⟩ : ∃ n, bound = n + 1 := ⟨bound - 1, by omega⟩
    have hread := hitem element List.mem_cons_self value hv
      ((elements.map write).flatMap (',' :: ·) ++ ']' :: rest) (follows_others (.inl rfl) _ _)
    rw [List.map_cons, List.flatMap_cons, List.cons_append, List.cons_append, List.append_assoc,
      elementsWithin_next (nextElement_other element _) hread, bind_apply,
      ih (fun e he => hitem e (List.mem_cons_of_mem _ he)) hvs (Nat.lt_of_succ_lt_succ hbound)]
    rfl

/-- **Elements are read back**, each as what is taken of its value. -/
theorem elements_write {elements : List Json} {values : List α}
    (hitem : ∀ element ∈ elements, ∀ value, take element = .ok value →
      item.Reads element.write value)
    (htake : elements.mapM take = .ok values) (rest : List Char) :
    Reader.elements item (commaSeparated (writeElements elements) ++ ']' :: rest) =
      .ok (values, ']' :: rest) := by
  rw [writeElements_eq, Reader.elements]
  cases elements with
  | nil =>
    cases htake
    exact elementsWithin_end (Nat.succ_pos _) true rest
  | cons element elements =>
    obtain ⟨value, values, hv, hvs, rfl⟩ := mapM_cons_eq_ok htake
    have hread := hitem element List.mem_cons_self value hv
      ((elements.map write).flatMap (',' :: ·) ++ ']' :: rest) (follows_others (.inl rfl) _ _)
    have hbound := length_le_others (elements.map write)
    rw [List.length_map] at hbound
    rw [List.map_cons, commaSeparated_cons, List.append_assoc,
      elementsWithin_next (nextElement_first element _) hread, bind_apply,
      elementsWithin_others (fun e he => hitem e (List.mem_cons_of_mem _ he)) hvs]
    · rfl
    · simp only [List.length_append, List.length_cons]
      omega

end Elements

/-! ## Members -/

theorem key_quote (name : String) (rest : List Char) :
    key (quote name ++ rest) = .ok (name, rest) := by
  rw [quote, List.append_assoc]
  exact quotedRest_escaped name rest

theorem nextKey_first (name : String) (rest : List Char) :
    nextKey true (quote name ++ rest) = .ok (some name, rest) := by
  have hread : (some <$> key) (quote name ++ rest) = .ok (some name, rest) := by
    rw [map_apply, key_quote]
  exact hread

theorem nextKey_other (name : String) (rest : List Char) :
    nextKey false (',' :: (quote name ++ rest)) = .ok (some name, rest) := by
  have hread : (some <$> key) (quote name ++ rest) = .ok (some name, rest) := by
    rw [map_apply, key_quote]
  exact hread

section Members

variable {step : σ → String → Reader σ} {take : σ → String × Json → Except Complaint σ}

theorem membersWithin_end {bound : Nat} (h : 0 < bound) (isFirst : Bool) (gathered : σ)
    (rest : List Char) :
    membersWithin step bound isFirst gathered ('\x7d' :: rest) =
      .ok (gathered, '\x7d' :: rest) := by
  cases bound with
  | zero => exact absurd h (Nat.lt_irrefl 0)
  | succ bound => rfl

/-- One member is read, then the others. -/
theorem membersWithin_next {isFirst : Bool} {text left rest : List Char} {gathered next : σ}
    {name : String} (hkey : nextKey isFirst text = .ok (some name, left))
    (hstep : step gathered name left = .ok (next, rest)) (bound : Nat) :
    membersWithin step (bound + 1) isFirst gathered text =
      membersWithin step bound false next rest := by
  rw [membersWithin, bind_apply, hkey]
  simp only [bind_apply, hstep]

theorem membersWithin_others {members : List (String × Json)} {gathered final : σ}
    (hstep : ∀ member ∈ members, ∀ gathered next, take gathered member = .ok next →
      (step gathered member.1).Reads (':' :: member.2.write) next)
    (htake : members.foldlM take gathered = .ok final) {bound : Nat}
    (hbound : members.length < bound) (rest : List Char) :
    membersWithin step bound false gathered
        ((members.map writeMember).flatMap (',' :: ·) ++ '\x7d' :: rest) =
      .ok (final, '\x7d' :: rest) := by
  induction members generalizing gathered bound with
  | nil =>
    cases htake
    exact membersWithin_end hbound false _ rest
  | cons member members ih =>
    rw [List.foldlM_cons] at htake
    obtain ⟨next, hn, hns⟩ := exists_of_bind_eq_ok htake
    obtain ⟨bound, rfl⟩ : ∃ n, bound = n + 1 := ⟨bound - 1, by omega⟩
    have hread := hstep member List.mem_cons_self gathered next hn
      ((members.map writeMember).flatMap (',' :: ·) ++ '\x7d' :: rest)
      (follows_others (.inr rfl) _ _)
    rw [List.map_cons, List.flatMap_cons, List.cons_append, List.cons_append, List.append_assoc,
      writeMember, List.append_assoc, membersWithin_next (nextKey_other _ _) hread]
    exact ih (fun m hm => hstep m (List.mem_cons_of_mem _ hm)) hns (Nat.lt_of_succ_lt_succ hbound)

/-- **Members are read back**, each as what is taken of it. -/
theorem members_write {members : List (String × Json)} {start final : σ}
    (hstep : ∀ member ∈ members, ∀ gathered next, take gathered member = .ok next →
      (step gathered member.1).Reads (':' :: member.2.write) next)
    (htake : members.foldlM take start = .ok final) (rest : List Char) :
    Reader.members step start (commaSeparated (writeMembers members) ++ '\x7d' :: rest) =
      .ok (final, '\x7d' :: rest) := by
  rw [writeMembers_eq, Reader.members]
  cases members with
  | nil =>
    cases htake
    exact membersWithin_end (Nat.succ_pos _) true _ rest
  | cons member members =>
    rw [List.foldlM_cons] at htake
    obtain ⟨next, hn, hns⟩ := exists_of_bind_eq_ok htake
    have hread := hstep member List.mem_cons_self start next hn
      ((members.map writeMember).flatMap (',' :: ·) ++ '\x7d' :: rest)
      (follows_others (.inr rfl) _ _)
    have hbound := length_le_others (members.map writeMember)
    rw [List.length_map] at hbound
    rw [List.map_cons, commaSeparated_cons, List.append_assoc, writeMember, List.append_assoc,
      membersWithin_next (nextKey_first _ _) hread]
    refine membersWithin_others (fun m hm => hstep m (List.mem_cons_of_mem _ hm)) hns ?_ rest
    simp only [List.length_append, List.length_cons]
    omega

end Members

end Reader

end SchemaScalar.Json
