import Mathlib.Data.List.Forall2
import SchemaScalar.Json.Decoder
import SchemaScalar.Proofs.Json.Tree

/-!
# What decoders make of documents

What a document means to a decoder is a relation between trees and values: a boolean means itself,
an array the values that its elements mean, and most documents mean nothing. A decoder `Decides` the
text of a document if it reads it as the values that it means, and fails where it means none. Each
decoder decides all documents, those made from others where the inner ones do.
-/

namespace SchemaScalar.Json

variable {α β : Type}

/-- Whether a reader takes a text off the front as each of the values that it means, and as no other
value, whatever may follow it. -/
def Reader.Decides (reader : Reader α) (text : List Char) (means : α → Prop) : Prop :=
  ∀ rest, Follows rest → ∀ value left,
    reader (text ++ rest) = .ok (value, left) ↔ means value ∧ left = rest

/-! ## Steps that succeed -/

namespace Reader

theorem bind_eq_ok_iff {first : Reader α} {next : α → Reader β} {text : List Char}
    {result : β × List Char} :
    (first >>= next) text = .ok result ↔
      ∃ value left, first text = .ok (value, left) ∧ next value left = .ok result := by
  constructor
  · intro h
    cases hfirst : first text with
    | error fault =>
      rw [bind_apply, hfirst] at h
      cases h
    | ok read =>
      rw [bind_of_ok hfirst] at h
      exact ⟨read.1, read.2, rfl, h⟩
  · rintro ⟨value, left, hfirst, hnext⟩
    rw [bind_of_ok hfirst]
    exact hnext

theorem map_eq_ok_iff {f : α → β} {reader : Reader α} {text left : List Char} {result : β} :
    (f <$> reader) text = .ok (result, left) ↔
      ∃ value, reader text = .ok (value, left) ∧ result = f value := by
  rw [map_apply]
  constructor
  · intro h
    split at h
    · next hread =>
      cases h
      exact ⟨_, hread, rfl⟩
    · cases h
  · rintro ⟨value, hread, rfl⟩
    rw [hread]

theorem ofExcept_eq_ok_iff {result : Except Complaint α} {text left : List Char} {value : α} :
    ofExcept result text = .ok (value, left) ↔ result = .ok value ∧ left = text := by
  cases result with
  | error what => exact iff_of_false (by rintro ⟨⟩) (by rintro ⟨⟨⟩, _⟩)
  | ok found =>
    constructor
    · intro h
      cases h
      exact ⟨rfl, rfl⟩
    · rintro ⟨h, rfl⟩
      cases h
      rfl

/-- A refusal of what stands there is never a result. -/
theorem mistyped_ne_ok (expected : String) (text : List Char) (result : α × List Char) :
    mistyped expected text ≠ .ok result := by
  intro h
  obtain ⟨what, left, -, hcomplain⟩ := bind_eq_ok_iff.1 h
  cases hcomplain

theorem complainAfter_ne_ok (closing : Reader Unit) (what : Complaint) (text : List Char)
    (result : α × List Char) : complainAfter closing what text ≠ .ok result := by
  unfold complainAfter
  split <;> rintro ⟨⟩

theorem present_cons {reader : Reader α} {c : Char} (h : isBlank c = false) (rest : List Char) :
    present reader (c :: rest) = reader (c :: rest) := by
  rw [present, List.dropWhile_cons_of_neg (by simp [h])]

/-! ## Deciding -/

section Decides

variable {reader : Reader α} {text : List Char} {means : α → Prop}

theorem decides_of_reads (value : α) (h : reader.Reads text value)
    (hmeans : ∀ other, means other ↔ other = value) : reader.Decides text means := by
  intro rest hrest other left
  rw [h rest hrest, hmeans]
  constructor
  · intro heq
    cases heq
    exact ⟨rfl, rfl⟩
  · rintro ⟨rfl, rfl⟩
    rfl

theorem decides_of_refuses (h : ∀ rest result, reader (text ++ rest) ≠ .ok result)
    (hmeans : ∀ value, ¬ means value) : reader.Decides text means := by
  intro rest _ value left
  exact iff_of_false (h rest _) fun hvalue => hmeans value hvalue.1

/-- Documents of a kind that is refused by its first character mean nothing. -/
theorem decides_of_opens {tree : Tree}
    (h : ∀ c others result, tree.Opens c → reader (c :: others) ≠ .ok result)
    (hmeans : ∀ value, ¬ means value) : (present reader).Decides tree.render means := by
  refine decides_of_refuses ?_ hmeans
  intro rest result
  obtain ⟨c, others, htext, hopens⟩ := tree.render_head
  rw [htext, List.cons_append, present_cons hopens.not_isBlank]
  exact h c _ result hopens

end Decides

end Reader

/-! ## Documents of each kind -/

namespace Tree

def IsBool (tree : Tree) (b : Bool) : Prop := tree = .bool b

def IsString (tree : Tree) (s : String) : Prop := tree = .string s

/-- A document that is the given integer, written without fraction and exponent; a zero with a minus
sign is none. -/
def IsInt64 (tree : Tree) (k : Int64) : Prop :=
  ∃ n spelling proper, tree = .numeral n spelling proper ∧ n.Denotes k.toInt

/-- A document that is `null`, or one of the wanted kind. -/
def OrNull (means : Tree → α → Prop) (tree : Tree) : Option α → Prop
  | none => tree = .null
  | some value => means tree value

def IsArrayOf (means : Tree → α → Prop) (tree : Tree) (values : List α) : Prop :=
  ∃ elements, tree = .array elements ∧ List.Forall₂ means elements values

/-- Each element of an array of the wanted kind is of that kind. -/
theorem IsArrayOf.exists_of_mem {means : Tree → α → Prop} {elements : List Tree} {values : List α}
    (h : IsArrayOf means (.array elements) values) {element : Tree} (hmem : element ∈ elements) :
    ∃ value, means element value := by
  obtain ⟨_, heq, hvalues⟩ := h
  cases heq
  induction hvalues with
  | nil => cases hmem
  | cons hfirst _ ih =>
    rcases List.mem_cons.1 hmem with rfl | hmem
    · exact ⟨_, hfirst⟩
    · exact ih hmem

/-- The name of a choice, or an object that maps it to `null`. -/
def IsChoice (choices : List (String × α)) (tree : Tree) (chosen : α) : Prop :=
  ∃ name, Decoder.choose choices name = .ok chosen ∧
    (tree = .string name ∨ tree = .object [(name, .null)])

end Tree

namespace Decoder

/-! ## Scalar documents -/

theorem decides_bool (tree : Tree) : bool.ofText.Decides tree.render tree.IsBool := by
  unfold bool
  dsimp only
  cases tree with
  | bool b =>
    refine Reader.decides_of_reads b ?_ ?_
    · intro rest _
      cases b <;> rw [Tree.render] <;> rfl
    · intro other
      rw [Tree.IsBool, Tree.bool.injEq, eq_comm]
  | _ =>
    refine Reader.decides_of_opens ?_ (by rintro _ ⟨⟩)
    intro c others result hopens
    have ht := hopens.ne 't' (by rw [Tree.Opens]; decide)
    have hf := hopens.ne 'f' (by rw [Tree.Opens]; decide)
    split
    · next heq => exact absurd (List.cons.inj heq).1 ht
    · next heq => exact absurd (List.cons.inj heq).1 hf
    · exact Reader.mistyped_ne_ok _ _ _

theorem decides_string (tree : Tree) : string.ofText.Decides tree.render tree.IsString := by
  unfold string
  dsimp only
  cases tree with
  | string s =>
    refine Reader.decides_of_reads s ?_ ?_
    · intro rest _
      rw [Tree.render_string]
      exact quotedRest_escaped s rest
    · intro other
      rw [Tree.IsString, Tree.string.injEq, eq_comm]
  | _ =>
    refine Reader.decides_of_opens ?_ (by rintro _ ⟨⟩)
    intro c others result hopens
    have hquote := hopens.ne '"' (by rw [Tree.Opens]; decide)
    split
    · next heq => exact absurd (List.cons.inj heq).1 hquote
    · exact Reader.mistyped_ne_ok _ _ _

theorem decides_unit (tree : Tree) : unit.ofText.Decides tree.render fun _ => tree = .null := by
  unfold unit
  dsimp only
  cases tree with
  | null =>
    refine Reader.decides_of_reads () ?_ fun _ => by simp
    intro rest _
    rw [Tree.render]
    rfl
  | _ =>
    refine Reader.decides_of_opens ?_ (by rintro _ ⟨⟩)
    intro c others result hopens
    have hletter := hopens.ne 'n' (by rw [Tree.Opens]; decide)
    split
    · next heq => exact absurd (List.cons.inj heq).1 hletter
    · exact Reader.mistyped_ne_ok _ _ _

/-- A numeral is read as the number that it denotes, if any. -/
theorem number_text_iff {n : Numeral} (hn : n.IsProper) (spelling : Numeral.Spelling)
    {rest : List Char} (hrest : Follows rest) (number : Number) (left : List Char) :
    Reader.number (n.text spelling ++ rest) = .ok (number, left) ↔
      n.toNumber? = some number ∧ left = rest := by
  rw [Reader.number, Numeral.scan_text _ hn spelling hrest]
  dsimp only
  cases n.toNumber? with
  | none => exact iff_of_false (by rintro ⟨⟩) (by rintro ⟨⟨⟩, _⟩)
  | some found => simp [eq_comm]

theorem int64_numeral {c : Char} (hc : c = '-' ∨ c.isDigit = true) (others : List Char) :
    int64.ofText (c :: others) =
      (do let n ← Reader.number; Reader.ofExcept n.toInt64 : Reader _) (c :: others) := by
  have hskip : (c :: others).dropWhile Reader.isBlank = c :: others :=
    List.dropWhile_cons_of_neg (by simp [not_isBlank_of_numeral hc])
  simp only [int64, Reader.present, hskip, if_pos hc]

theorem decides_int64 (tree : Tree) : int64.ofText.Decides tree.render tree.IsInt64 := by
  cases tree with
  | numeral n spelling proper =>
    intro rest hrest k left
    obtain ⟨c, others, htext, hc⟩ := proper.text_head spelling
    have hnumber := number_text_iff proper spelling hrest
    have hdenotes : Tree.IsInt64 (.numeral n spelling proper) k ↔ n.Denotes k.toInt := by
      constructor
      · rintro ⟨_, _, _, heq, h⟩
        cases heq
        exact h
      · exact fun h => ⟨n, spelling, proper, rfl, h⟩
    rw [hdenotes, ← Numeral.exists_toInt64_iff, Tree.render]
    rw [htext, List.cons_append] at hnumber ⊢
    rw [int64_numeral hc, Reader.bind_eq_ok_iff]
    constructor
    · rintro ⟨number, after, hread, hk⟩
      obtain ⟨hn, rfl⟩ := (hnumber number after).1 hread
      obtain ⟨hinteger, rfl⟩ := Reader.ofExcept_eq_ok_iff.1 hk
      exact ⟨⟨number, hn, hinteger⟩, rfl⟩
    · rintro ⟨⟨number, hn, hk⟩, rfl⟩
      exact ⟨number, _, (hnumber number _).2 ⟨hn, rfl⟩, Reader.ofExcept_eq_ok_iff.2 ⟨hk, rfl⟩⟩
  | _ =>
    unfold int64
    dsimp only
    refine Reader.decides_of_opens ?_ (by rintro _ ⟨_, _, _, ⟨⟩, _⟩)
    intro c others result hopens
    simp only [if_neg (hopens.not_numeral (by rintro _ _ _ ⟨⟩))]
    exact Reader.mistyped_ne_ok _ _ _

/-! ## Documents that may be `null` -/

theorem decides_optional {inner : Decoder α} {tree : Tree} {means : Tree → α → Prop}
    (hinner : inner.ofText.Decides tree.render (means tree))
    (hnull : ∀ value, ¬ means .null value) :
    (optional inner).ofText.Decides tree.render (Tree.OrNull means tree) := by
  by_cases hkind : tree = .null
  · subst hkind
    refine Reader.decides_of_reads none ?_ ?_
    · intro rest _
      rw [Tree.render]
      rfl
    · intro value
      cases value with
      | none => exact iff_of_true rfl rfl
      | some content => exact iff_of_false (hnull content) (by rintro ⟨⟩)
  · intro rest hrest value left
    obtain ⟨c, others, htext, hopens⟩ := tree.render_head
    have hletter : c ≠ 'n' := hopens.ne 'n' (by
      cases tree with
      | null => exact absurd rfl hkind
      | _ => rw [Tree.Opens]; decide)
    have hskip : (c :: (others ++ rest)).dropWhile Reader.isBlank = c :: (others ++ rest) :=
      List.dropWhile_cons_of_neg (by simp [hopens.not_isBlank])
    have hread : (optional inner).ofText (tree.render ++ rest) =
        (some <$> inner.ofText) (tree.render ++ rest) := by
      rw [htext, List.cons_append]
      simp only [optional, hskip]
      split
      · next heq => exact absurd (List.cons.inj heq).1 hletter
      · rfl
    rw [hread, Reader.map_eq_ok_iff]
    cases value with
    | none => exact iff_of_false (by rintro ⟨_, _, ⟨⟩⟩) fun h => hkind h.1
    | some content =>
      rw [Tree.OrNull, ← hinner rest hrest]
      constructor
      · rintro ⟨_, h, heq⟩
        cases heq
        exact h
      · exact fun h => ⟨content, h, rfl⟩

/-! ## Choices -/

theorem choiceName_iff (choices : List (String × α)) (name : String) (rest : List Char) (value : α)
    (left : List Char) :
    choiceName choices (name.toList.flatMap escapeChar ++ '"' :: rest) = .ok (value, left) ↔
      choose choices name = .ok value ∧ left = rest := by
  rw [choiceName, Reader.bind_of_ok (quotedRest_escaped name rest)]
  exact Reader.ofExcept_eq_ok_iff

/-- The only member of an object is closed; another one is not. -/
theorem closeSingle_iff (texts : List (List Char)) (rest left : List Char) :
    closeSingle (texts.flatMap (',' :: ·) ++ '\x7d' :: rest) = .ok ((), left) ↔
      texts = [] ∧ left = rest := by
  cases texts with
  | nil =>
    have hread : closeSingle ('\x7d' :: rest) = .ok ((), rest) := rfl
    rw [List.flatMap_nil, List.nil_append, hread]
    simp [eq_comm]
  | cons text texts =>
    refine iff_of_false ?_ (by rintro ⟨⟨⟩, _⟩)
    intro h
    cases h

/-- What is read of an object that gives a choice, after its opening brace. -/
def choiceMember (choices : List (String × α)) : Reader α := do
  let chosen ← choiceKey choices
  Reader.colon
  unit.ofText
  closeSingle
  return chosen

theorem choiceMember_iff (choices : List (String × α)) (members : List (String × Tree))
    (rest : List Char) (value : α) (left : List Char) :
    choiceMember choices (commaSeparated (members.map Tree.renderMember) ++ '\x7d' :: rest) =
        .ok (value, left) ↔
      (∃ name, choose choices name = .ok value ∧ members = [(name, .null)]) ∧ left = rest := by
  cases members with
  | nil =>
    refine iff_of_false ?_ ?_
    · intro h
      obtain ⟨_, _, hkey, -⟩ := Reader.bind_eq_ok_iff.1 h
      cases hkey
    · rintro ⟨⟨_, _, ⟨⟩⟩, _⟩
  | cons member others =>
    obtain ⟨name, inner⟩ := member
    have hkey := choiceName_iff choices name (':' :: (inner.render ++
      ((others.map Tree.renderMember).flatMap (',' :: ·) ++ '\x7d' :: rest)))
    have hnull := decides_unit inner _
      (follows_others (.inr rfl) (others.map Tree.renderMember) rest) ()
    have hclose := closeSingle_iff (others.map Tree.renderMember) rest
    have htext : commaSeparated (((name, inner) :: others).map Tree.renderMember) ++
        '\x7d' :: rest = '"' :: (name.toList.flatMap escapeChar ++ '"' :: (':' :: (inner.render ++
          ((others.map Tree.renderMember).flatMap (',' :: ·) ++ '\x7d' :: rest)))) := by
      rw [List.map_cons, commaSeparated_cons, Tree.renderMember, quote]
      simp only [List.cons_append, List.nil_append, List.append_assoc]
    rw [htext]
    constructor
    · intro h
      obtain ⟨chosen, afterKey, hreadKey, hrest⟩ := Reader.bind_eq_ok_iff.1 h
      obtain ⟨hchosen, rfl⟩ := (hkey chosen afterKey).1 hreadKey
      obtain ⟨_, afterColon, hreadColon, hrest⟩ := Reader.bind_eq_ok_iff.1 hrest
      cases hreadColon
      obtain ⟨_, afterValue, hreadValue, hrest⟩ := Reader.bind_eq_ok_iff.1 hrest
      obtain ⟨rfl, rfl⟩ := (hnull afterValue).1 hreadValue
      obtain ⟨_, after, hreadClose, hlast⟩ := Reader.bind_eq_ok_iff.1 hrest
      obtain ⟨hothers, rfl⟩ := (hclose after).1 hreadClose
      cases hlast
      obtain rfl := List.map_eq_nil_iff.1 hothers
      exact ⟨⟨name, hchosen, rfl⟩, rfl⟩
    · rintro ⟨⟨_, hchosen, heq⟩, rfl⟩
      cases heq
      refine Reader.bind_eq_ok_iff.2 ⟨value, _, (hkey value _).2 ⟨hchosen, rfl⟩, ?_⟩
      refine Reader.bind_eq_ok_iff.2 ⟨(), _, rfl, ?_⟩
      refine Reader.bind_eq_ok_iff.2 ⟨(), _, (hnull _).2 ⟨rfl, rfl⟩, ?_⟩
      exact Reader.bind_eq_ok_iff.2 ⟨(), _, (hclose _).2 ⟨rfl, rfl⟩, rfl⟩

theorem decides_choice (choices : List (String × α)) (tree : Tree) :
    (choice choices).ofText.Decides tree.render (tree.IsChoice choices) := by
  cases tree with
  | string name =>
    intro rest _ value left
    have hmeans : Tree.IsChoice choices (.string name) value ↔ choose choices name = .ok value := by
      constructor
      · rintro ⟨_, hchosen, heq | heq⟩
        · cases heq
          exact hchosen
        · cases heq
      · exact fun h => ⟨name, h, .inl rfl⟩
    rw [hmeans, Tree.render_string]
    exact choiceName_iff choices name rest value left
  | object members =>
    intro rest _ value left
    have hmeans : Tree.IsChoice choices (.object members) value ↔
        ∃ name, choose choices name = .ok value ∧ members = [(name, .null)] := by
      constructor
      · rintro ⟨name, hchosen, heq | heq⟩
        · cases heq
        · cases heq
          exact ⟨name, hchosen, rfl⟩
      · rintro ⟨name, hchosen, rfl⟩
        exact ⟨name, hchosen, .inr rfl⟩
    rw [hmeans, Tree.render_object]
    exact choiceMember_iff choices members rest value left
  | _ =>
    unfold choice
    dsimp only
    refine Reader.decides_of_opens ?_ ?_
    · intro c others result hopens
      have hquote := hopens.ne '"' (by rw [Tree.Opens]; decide)
      have hbrace := hopens.ne '\x7b' (by rw [Tree.Opens]; decide)
      split
      · next heq => exact absurd (List.cons.inj heq).1 hquote
      · next heq => exact absurd (List.cons.inj heq).1 hbrace
      · rintro ⟨⟩
    · rintro value ⟨_, _, heq | heq⟩ <;> cases heq

end Decoder

/-! ## Arrays -/

namespace Reader

section Elements

variable {item : Reader α} {means : Tree → α → Prop}

/-- The first of several elements is read, then the others. -/
theorem elementsWithin_cons {isFirst : Bool} {text : List Char} {element : Tree}
    {elements : List Tree} {bound : Nat} {rest : List Char}
    (hnext : nextElement isFirst text = .ok (true, element.render ++
      ((elements.map Tree.render).flatMap (',' :: ·) ++ ']' :: rest)))
    (hfirst : item.Decides element.render (means element))
    (hothers : ∀ values left, elementsWithin item bound false
        ((elements.map Tree.render).flatMap (',' :: ·) ++ ']' :: rest) = .ok (values, left) ↔
      List.Forall₂ means elements values ∧ left = ']' :: rest)
    (values : List α) (left : List Char) :
    elementsWithin item (bound + 1) isFirst text = .ok (values, left) ↔
      List.Forall₂ means (element :: elements) values ∧ left = ']' :: rest := by
  have hfirst := hfirst _ (follows_others (.inl rfl) (elements.map Tree.render) rest)
  rw [elementsWithin, bind_of_ok hnext, if_pos rfl]
  constructor
  · intro h
    obtain ⟨value, after, hreadFirst, hrest⟩ := bind_eq_ok_iff.1 h
    obtain ⟨hvalue, rfl⟩ := (hfirst value after).1 hreadFirst
    obtain ⟨others, after, hreadOthers, hrest⟩ := bind_eq_ok_iff.1 hrest
    obtain ⟨hmeans, rfl⟩ := (hothers others after).1 hreadOthers
    cases hrest
    exact ⟨.cons hvalue hmeans, rfl⟩
  · rintro ⟨hmeans, rfl⟩
    cases hmeans with
    | cons hvalue hmeans =>
      refine bind_eq_ok_iff.2 ⟨_, _, (hfirst _ _).2 ⟨hvalue, rfl⟩, ?_⟩
      exact bind_eq_ok_iff.2 ⟨_, _, (hothers _ _).2 ⟨hmeans, rfl⟩, rfl⟩

theorem elementsWithin_others_iff {elements : List Tree}
    (hitem : ∀ element ∈ elements, item.Decides element.render (means element)) {bound : Nat}
    (hbound : elements.length < bound) (rest : List Char) (values : List α) (left : List Char) :
    elementsWithin item bound false
        ((elements.map Tree.render).flatMap (',' :: ·) ++ ']' :: rest) = .ok (values, left) ↔
      List.Forall₂ means elements values ∧ left = ']' :: rest := by
  induction elements generalizing values left bound with
  | nil =>
    rw [List.map_nil, List.flatMap_nil, List.nil_append, elementsWithin_end hbound,
      List.forall₂_nil_left_iff]
    simp [eq_comm]
  | cons element elements ih =>
    obtain ⟨bound, rfl⟩ : ∃ n, bound = n + 1 := ⟨bound - 1, by omega⟩
    refine elementsWithin_cons ?_ (hitem element List.mem_cons_self)
      (ih (fun e he => hitem e (List.mem_cons_of_mem _ he)) (Nat.lt_of_succ_lt_succ hbound))
      values left
    obtain ⟨c, others, htext, hblank, hbracket, -⟩ := element.starts_render
    rw [List.map_cons, List.flatMap_cons, List.cons_append, List.cons_append, List.append_assoc,
      htext, List.cons_append]
    exact nextElement_comma_cons hblank hbracket _

/-- **The elements of an array are read as what they mean**, one by one. -/
theorem elements_iff {elements : List Tree}
    (hitem : ∀ element ∈ elements, item.Decides element.render (means element))
    (rest : List Char) (values : List α) (left : List Char) :
    Reader.elements item (commaSeparated (elements.map Tree.render) ++ ']' :: rest) =
        .ok (values, left) ↔
      List.Forall₂ means elements values ∧ left = ']' :: rest := by
  rw [Reader.elements]
  cases elements with
  | nil =>
    rw [List.map_nil, commaSeparated, List.nil_append, elementsWithin_end (Nat.succ_pos _),
      List.forall₂_nil_left_iff]
    simp [eq_comm]
  | cons element elements =>
    have hbound := length_le_others (elements.map Tree.render)
    rw [List.length_map] at hbound
    rw [List.map_cons, commaSeparated_cons, List.append_assoc]
    refine elementsWithin_cons ?_ (hitem element List.mem_cons_self)
      (elementsWithin_others_iff (fun e he => hitem e (List.mem_cons_of_mem _ he)) ?_ rest)
      values left
    · obtain ⟨c, others, htext, hblank, hbracket, -⟩ := element.starts_render
      rw [htext, List.cons_append]
      exact nextElement_true_cons hblank hbracket _
    · simp only [List.length_append, List.length_cons]
      omega

end Elements

end Reader

namespace Decoder

/-- What is read of an array after its opening bracket. -/
def listElements (inner : Decoder α) : Reader (List α) := do
  let read ← Reader.elements inner.ofText
  Reader.endArray
  return read

theorem decides_list {inner : Decoder α} {tree : Tree} {means : Tree → α → Prop}
    (hinner : ∀ elements, tree = .array elements → ∀ element ∈ elements,
      inner.ofText.Decides element.render (means element)) :
    (list inner).ofText.Decides tree.render (Tree.IsArrayOf means tree) := by
  cases tree with
  | array elements =>
    intro rest _ values left
    have helements := Reader.elements_iff (hinner elements rfl) rest
    have hmeans : Tree.IsArrayOf means (.array elements) values ↔
        List.Forall₂ means elements values := by
      constructor
      · rintro ⟨_, heq, h⟩
        cases heq
        exact h
      · exact fun h => ⟨elements, rfl, h⟩
    rw [hmeans, Tree.render_array]
    show listElements inner _ = _ ↔ _
    constructor
    · intro h
      obtain ⟨read, after, hread, hrest⟩ := Reader.bind_eq_ok_iff.1 h
      obtain ⟨hvalues, rfl⟩ := (helements read after).1 hread
      cases hrest
      exact ⟨hvalues, rfl⟩
    · rintro ⟨hvalues, rfl⟩
      exact Reader.bind_eq_ok_iff.2 ⟨values, _, (helements _ _).2 ⟨hvalues, rfl⟩, rfl⟩
  | _ =>
    unfold list
    dsimp only
    refine Reader.decides_of_opens ?_ (by rintro _ ⟨_, ⟨⟩, _⟩)
    intro c others result hopens
    have hbracket := hopens.ne '[' (by rw [Tree.Opens]; decide)
    split
    · next heq => exact absurd (List.cons.inj heq).1 hbracket
    · exact Reader.mistyped_ne_ok _ _ _

/-! ## Whole texts -/

/-- The text of a document, if nothing else stands there, is read as what the document means. -/
theorem read_eq_ok_iff {decoder : Decoder α} {tree : Tree} {means : α → Prop}
    (h : decoder.ofText.Decides tree.render means) (value : α) :
    decoder.read tree.render = .ok value ↔ means value := by
  have hread := h [] (by simp [Follows])
  rw [List.append_nil] at hread
  unfold read Reader.whole
  constructor
  · intro hvalue
    split at hvalue
    · next hwhole =>
      cases hvalue
      obtain ⟨found, left, hfound, hrest⟩ := Reader.bind_eq_ok_iff.1 hwhole
      obtain ⟨hmeans, rfl⟩ := (hread found left).1 hfound
      cases hrest
      exact hmeans
    · cases hvalue
    · cases hvalue
  · intro hvalue
    rw [Reader.bind_of_ok ((hread value []).2 ⟨hvalue, rfl⟩)]
    rfl

end Decoder

end SchemaScalar.Json
