import SchemaScalar.Json.Value
import SchemaScalar.Proofs.Json.Container

/-!
# Documents as trees

A value does not tell how its numbers were written, and of members with one key it keeps the last. A
tree is a document before it is read: numbers are numerals, and the members of an object stand in
any order and as often as they like. `render` is its text. Whatever the tree, its text is passed
over (`pass_render`), how deep containers may be nested and which numbers are too large
notwithstanding.
-/

namespace SchemaScalar.Json

/-- A JSON document as it is written. -/
inductive Tree where
  | null
  | bool (b : Bool)
  | numeral (n : Numeral) (spelling : Numeral.Spelling) (proper : n.IsProper)
  | string (s : String)
  | array (elements : List Tree)
  | object (members : List (String × Tree))

namespace Tree

mutual

/-- The text of a document, as characters. -/
def render : Tree → List Char
  | .null => ['n', 'u', 'l', 'l']
  | .bool true => ['t', 'r', 'u', 'e']
  | .bool false => ['f', 'a', 'l', 's', 'e']
  | .numeral n spelling _ => n.text spelling
  | .string s => quote s
  | .array elements => '[' :: commaSeparated (renderElements elements) ++ [']']
  | .object members => '\x7b' :: commaSeparated (renderMembers members) ++ ['\x7d']

def renderElements : List Tree → List (List Char)
  | [] => []
  | element :: rest => render element :: renderElements rest

def renderMembers : List (String × Tree) → List (List Char)
  | [] => []
  | (key, value) :: rest => (quote key ++ ':' :: render value) :: renderMembers rest

end

def print (tree : Tree) : String := String.ofList tree.render

theorem renderElements_eq (elements : List Tree) :
    renderElements elements = elements.map render := by
  induction elements with
  | nil => rw [renderElements, List.map_nil]
  | cons element elements ih => rw [renderElements, ih, List.map_cons]

def renderMember (member : String × Tree) : List Char := quote member.1 ++ ':' :: member.2.render

theorem renderMembers_eq (members : List (String × Tree)) :
    renderMembers members = members.map renderMember := by
  induction members with
  | nil => rw [renderMembers, List.map_nil]
  | cons member members ih =>
    obtain ⟨name, value⟩ := member
    rw [renderMembers, ih, List.map_cons, renderMember]

theorem render_array (elements : List Tree) (rest : List Char) :
    (array elements).render ++ rest =
      '[' :: (commaSeparated (elements.map render) ++ ']' :: rest) := by
  rw [render, renderElements_eq, List.append_assoc]
  rfl

theorem render_object (members : List (String × Tree)) (rest : List Char) :
    (object members).render ++ rest =
      '\x7b' :: (commaSeparated (members.map renderMember) ++ '\x7d' :: rest) := by
  rw [render, renderMembers_eq, List.append_assoc]
  rfl

theorem render_string (s : String) (rest : List Char) :
    (string s).render ++ rest = '"' :: (s.toList.flatMap escapeChar ++ '"' :: rest) := by
  rw [render, quote, List.append_assoc]
  rfl

end Tree

/-! ## How documents start -/

/-- Whether a text starts with a character that is no blank and closes nothing. -/
def Starts (text : List Char) : Prop :=
  ∃ c others, text = c :: others ∧ Reader.isBlank c = false ∧ c ≠ ']' ∧ c ≠ '\x7d'

/-- A numeral starts with its sign or with a digit. -/
theorem Numeral.IsProper.text_head {n : Numeral} (hn : n.IsProper) (spelling : Spelling) :
    ∃ c others, n.text spelling = c :: others ∧ (c = '-' ∨ c.isDigit = true) := by
  obtain ⟨d, tail, hd⟩ := List.exists_cons_of_ne_nil hn.whole.1
  have hdigit : d.isDigit = true := hn.whole.2 d (hd ▸ List.mem_cons_self)
  unfold text
  by_cases hneg : n.negative = true
  · rw [if_pos hneg]
    exact ⟨'-', _, rfl, .inl rfl⟩
  · rw [if_neg hneg, hd]
    exact ⟨d, _, rfl, .inr hdigit⟩

/-- What starts a numeral starts nothing else. -/
theorem ne_of_numeral {c : Char} (h : c = '-' ∨ c.isDigit = true) (other : Char)
    (hother : ¬ (other = '-' ∨ other.isDigit = true)) : c ≠ other := by
  rintro rfl
  exact hother h

theorem not_isBlank_of_numeral {c : Char} (h : c = '-' ∨ c.isDigit = true) :
    Reader.isBlank c = false := by
  have hnumeric : IsNumeric c := by
    rcases h with rfl | h
    · decide
    · exact .inl h
  exact hnumeric.starts.1

theorem starts_quote (s : String) (rest : List Char) : Starts (quote s ++ rest) :=
  ⟨'"', _, rfl, by decide, by decide, by decide⟩

namespace Tree

/-- The characters with which documents of one kind start. -/
def Opens : Tree → Char → Prop
  | .null, c => c = 'n'
  | .bool _, c => c = 't' ∨ c = 'f'
  | .numeral _ _ _, c => c = '-' ∨ c.isDigit = true
  | .string _, c => c = '"'
  | .array _, c => c = '['
  | .object _, c => c = '\x7b'

/-- **The first character of a document tells its kind.** -/
theorem render_head (tree : Tree) : ∃ c others, tree.render = c :: others ∧ tree.Opens c := by
  cases tree with
  | null => exact ⟨'n', _, by rw [render], rfl⟩
  | bool b =>
    cases b with
    | true => exact ⟨'t', _, by rw [render], .inl rfl⟩
    | false => exact ⟨'f', _, by rw [render], .inr rfl⟩
  | numeral n spelling proper =>
    obtain ⟨c, others, htext, hc⟩ := proper.text_head spelling
    exact ⟨c, others, by rw [render, htext], hc⟩
  | string s => exact ⟨'"', _, by rw [render, quote]; rfl, rfl⟩
  | array elements => exact ⟨'[', _, by rw [render]; rfl, rfl⟩
  | object members => exact ⟨'\x7b', _, by rw [render]; rfl, rfl⟩

theorem Opens.ne {tree : Tree} {c : Char} (h : tree.Opens c) (other : Char)
    (hother : ¬ tree.Opens other) : c ≠ other := by
  rintro rfl
  exact hother h

/-- Only numerals start as numerals do. -/
theorem Opens.not_numeral {tree : Tree} {c : Char} (h : tree.Opens c)
    (hkind : ∀ n spelling proper, tree ≠ .numeral n spelling proper) :
    ¬ (c = '-' ∨ c.isDigit = true) := by
  cases tree with
  | numeral n spelling proper => exact absurd rfl (hkind n spelling proper)
  | bool b => rcases h with rfl | rfl <;> decide
  | _ =>
    rw [Opens] at h
    rw [h]
    decide

theorem Opens.not_isBlank {tree : Tree} {c : Char} (h : tree.Opens c) :
    Reader.isBlank c = false := by
  cases tree with
  | numeral n spelling proper => exact not_isBlank_of_numeral h
  | bool b => rcases h with rfl | rfl <;> decide
  | _ =>
    rw [Opens] at h
    rw [h]
    decide

theorem starts_render (tree : Tree) : Starts tree.render := by
  obtain ⟨c, others, htext, hopens⟩ := tree.render_head
  have hcloses : ∀ close, close = ']' ∨ close = '\x7d' → ¬ tree.Opens close := by
    rintro close (rfl | rfl)
    all_goals
      cases tree <;> rw [Opens] <;> decide
  exact ⟨c, others, htext, hopens.not_isBlank, hopens.ne ']' (hcloses _ (.inl rfl)),
    hopens.ne '\x7d' (hcloses _ (.inr rfl))⟩

end Tree

/-! ## Passing over documents -/

namespace Reader

theorem passCharactersWithin_escaped (chars rest : List Char) {bound : Nat}
    (h : chars.length < bound) :
    passCharactersWithin bound (chars.flatMap escapeChar ++ '"' :: rest) = .ok ((), rest) := by
  induction chars generalizing bound with
  | nil =>
    cases bound with
    | zero => exact absurd h (Nat.not_lt_zero _)
    | succ bound => rfl
  | cons c chars ih =>
    cases bound with
    | zero => exact absurd h (Nat.not_lt_zero _)
    | succ bound =>
      have hrest := ih (Nat.lt_of_succ_lt_succ h)
      rw [List.flatMap_cons, List.append_assoc]
      obtain ⟨letter, hform, hletter⟩ | ⟨hform, hcontrol⟩ | ⟨hform, hquote, hback, hcontrol⟩ :=
        escapeChar_forms c
      · simp only [hform, List.cons_append, List.nil_append, passCharactersWithin, bind_apply,
          escape, hletter, hrest]
      · have hcode : c.toNat < 32 := hcontrol
        have hunit := hexUnit_hexDigits (show c.toNat < 65536 by omega)
        have hletter : letterEscape? 'u' = none := by decide
        simp only [hform, List.cons_append, passCharactersWithin, bind_apply, escape, hletter,
          if_true, hunit, pure_apply, hrest]
      · rw [hform, List.singleton_append, passCharactersWithin]
        simp only [if_neg hcontrol, hrest]

theorem passQuotedRest_escaped (s : String) (rest : List Char) :
    passQuotedRest (s.toList.flatMap escapeChar ++ '"' :: rest) = .ok ((), rest) := by
  refine passCharactersWithin_escaped _ _ ?_
  have h := length_le_escaped s.toList
  rw [List.length_append]
  omega

section Items

variable {item : Reader Unit} {close : Char} {atEnd other : Malformed}

theorem passItemsWithin_next {text left : List Char} (hread : item text = .ok ((), left))
    (bound : Nat) :
    passItemsWithin item close atEnd other (bound + 1) text =
      match left.dropWhile isBlank with
      | [] => malformedAhead atEnd []
      | c :: rest =>
        if c = ',' then passItemsWithin item close atEnd other bound rest
        else if c = close then .ok ((), rest)
        else malformedAhead other (c :: rest) :=
  bind_of_ok hread

/-- One item is passed over, and the others after their commas. -/
theorem passItemsWithin_others (hclose : close = ']' ∨ close = '\x7d') {text : List Char}
    {texts : List (List Char)} (hitem : ∀ t ∈ text :: texts, item.Reads t ()) {bound : Nat}
    (hbound : texts.length < bound) (rest : List Char) :
    passItemsWithin item close atEnd other bound
        (text ++ (texts.flatMap (',' :: ·) ++ close :: rest)) = .ok ((), rest) := by
  induction texts generalizing text bound with
  | nil =>
    obtain ⟨bound, rfl⟩ : ∃ n, bound = n + 1 := ⟨bound - 1, by omega⟩
    have hread := hitem text List.mem_cons_self (close :: rest) (follows_others hclose [] rest)
    rw [List.flatMap_nil, List.nil_append, passItemsWithin_next hread]
    rcases hclose with rfl | rfl <;> rfl
  | cons next texts ih =>
    obtain ⟨bound, rfl⟩ : ∃ n, bound = n + 1 := ⟨bound - 1, by omega⟩
    have hread := hitem text List.mem_cons_self _ (follows_others hclose (next :: texts) rest)
    have hrest := ih (fun t ht => hitem t (List.mem_cons_of_mem _ ht))
      (Nat.lt_of_succ_lt_succ hbound)
    rw [List.flatMap_cons, List.cons_append, List.cons_append, List.append_assoc] at hread ⊢
    rw [passItemsWithin_next hread]
    exact hrest

theorem passItems_texts (hclose : close = ']' ∨ close = '\x7d') {texts : List (List Char)}
    (hitem : ∀ t ∈ texts, item.Reads t ()) (hstarts : ∀ t ∈ texts, Starts t)
    (rest : List Char) :
    passItems item close atEnd other (commaSeparated texts ++ close :: rest) = .ok ((), rest) := by
  cases texts with
  | nil => rcases hclose with rfl | rfl <;> rfl
  | cons text texts =>
    have hbound : texts.length < ((commaSeparated (text :: texts)) ++ close :: rest).length := by
      have h := length_le_others texts
      simp only [commaSeparated_cons, List.length_append, List.length_cons]
      omega
    have hpass : passItemsWithin item close atEnd other _ _ = .ok ((), rest) :=
      passItemsWithin_others hclose hitem (Nat.lt_succ_of_lt hbound) rest
    obtain ⟨c, others, rfl, hblank, hbracket, hbrace⟩ := hstarts text List.mem_cons_self
    have hne : c ≠ close := by
      rcases hclose with rfl | rfl <;> assumption
    rw [commaSeparated_cons, List.append_assoc, List.cons_append] at hpass ⊢
    rw [passItems, List.dropWhile_cons_of_neg (by simp [hblank])]
    simp only [if_neg hne]
    exact hpass

end Items

theorem keyBy_quote (name : String) (rest : List Char) :
    keyBy passQuotedRest (quote name ++ rest) = .ok ((), rest) := by
  rw [quote, List.append_assoc]
  exact passQuotedRest_escaped name rest

theorem length_le_commaSeparated {text : List Char} {texts : List (List Char)} (h : text ∈ texts) :
    text.length ≤ (commaSeparated texts).length := by
  cases texts with
  | nil => cases h
  | cons first texts =>
    rw [commaSeparated_cons, List.length_append]
    rcases List.mem_cons.1 h with rfl | h
    · exact Nat.le_add_right _ _
    · have hle : (',' :: text).length ≤ (texts.flatMap (',' :: ·)).length :=
        (List.sublist_flatten_of_mem (List.mem_map_of_mem h)).length_le
      rw [List.length_cons] at hle
      omega

/-- **Every document is passed over**, if the bound is above its length. -/
theorem passWithin_render {bound : Nat} {tree : Tree} (h : tree.render.length < bound) :
    (passWithin bound).Reads tree.render () := by
  induction bound generalizing tree with
  | zero => exact absurd h (Nat.not_lt_zero _)
  | succ bound ih =>
    intro rest hrest
    cases tree with
    | null => rw [Tree.render]; rfl
    | bool b => cases b <;> rw [Tree.render] <;> rfl
    | numeral n spelling proper =>
      obtain ⟨c, others, htext, hc⟩ := proper.text_head spelling
      have hscan := Numeral.scan_text .invalidNumber proper spelling hrest
      have hskip : (c :: (others ++ rest)).dropWhile isBlank = c :: (others ++ rest) :=
        List.dropWhile_cons_of_neg (by simp [not_isBlank_of_numeral hc])
      rw [Tree.render]
      rw [htext, List.cons_append] at hscan ⊢
      simp only [passWithin, hskip, if_neg (ne_of_numeral hc 'n' (by decide)),
        if_neg (ne_of_numeral hc 't' (by decide)),
        if_neg (ne_of_numeral hc 'f' (by decide)), if_pos hc, passNumeral, bind_apply,
        hscan, pure_apply]
    | string s =>
      rw [Tree.render_string]
      exact passQuotedRest_escaped s rest
    | array elements =>
      rw [Tree.render, Tree.renderElements_eq, List.length_append, List.length_cons] at h
      rw [Tree.render_array]
      refine passItems_texts (.inl rfl) ?_ ?_ rest
      · intro text htext
        have hle := length_le_commaSeparated htext
        obtain ⟨element, -, rfl⟩ := List.mem_map.1 htext
        exact ih (by omega)
      · intro text htext
        obtain ⟨element, -, rfl⟩ := List.mem_map.1 htext
        exact element.starts_render
    | object members =>
      rw [Tree.render, Tree.renderMembers_eq, List.length_append, List.length_cons] at h
      rw [Tree.render_object]
      refine passItems_texts (.inr rfl) ?_ ?_ rest
      · intro text htext after hafter
        have hle := length_le_commaSeparated htext
        obtain ⟨⟨name, value⟩, -, rfl⟩ := List.mem_map.1 htext
        have hvalue : value.render.length < bound := by
          simp only [Tree.renderMember, List.length_append, List.length_cons] at hle
          omega
        have hcolon : colon (':' :: value.render ++ after) = .ok ((), value.render ++ after) := rfl
        simp only [Tree.renderMember, List.append_assoc, bind_apply, keyBy_quote, hcolon]
        exact ih hvalue after hafter
      · intro text htext
        obtain ⟨member, -, rfl⟩ := List.mem_map.1 htext
        exact starts_quote _ _

/-- **Every document is passed over**, how deep it may be nested and whatever its numbers are. -/
theorem pass_render (tree : Tree) : pass.Reads tree.render () := by
  intro rest hrest
  refine passWithin_render ?_ rest hrest
  rw [List.length_append]
  omega

end Reader

end SchemaScalar.Json
