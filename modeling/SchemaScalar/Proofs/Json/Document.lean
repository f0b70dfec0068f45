import SchemaScalar.Proofs.Json.Meaning

/-!
# Documents in their own order

A value that was read tells neither in which order the members of an object stood nor whether two of
them had one key. `readDocument` keeps all members as they stand, so that such things can be said of
a text, and the value is the document with its members sorted (`read_eq`).

What was read as a document stood there: `DocumentAt`, `ElementsAt` and `MembersAt` say which reader
took which part of the text, without the bounds and the gathering of the loops.
-/

namespace SchemaScalar.Json

variable {α β σ τ : Type}

/-! ## Sorting documents -/

mutual

/-- A document as the value that is read of it: members are sorted, of several with one key the last
stays. -/
def sorted : Json → Json
  | .null => .null
  | .bool b => .bool b
  | .number n => .number n
  | .string s => .string s
  | .array elements => .array (sortedElements elements)
  | .object members => .object (sortMembers (sortedMembers members))

def sortedElements : List Json → List Json
  | [] => []
  | element :: rest => sorted element :: sortedElements rest

def sortedMembers : List (String × Json) → List (String × Json)
  | [] => []
  | (key, value) :: rest => (key, sorted value) :: sortedMembers rest

end

theorem sortedElements_eq (elements : List Json) :
    sortedElements elements = elements.map sorted := by
  induction elements with
  | nil => rw [sortedElements, List.map_nil]
  | cons element elements ih => rw [sortedElements, ih, List.map_cons]

theorem sortedMembers_eq (members : List (String × Json)) :
    sortedMembers members = members.map fun member => (member.1, member.2.sorted) := by
  induction members with
  | nil => rw [sortedMembers, List.map_nil]
  | cons member members ih => rw [sortedMembers, ih, List.map_cons]

/-- The members of a document with one more at the end, as they are read. -/
theorem sortMembers_sortedMembers_concat (members : List (String × Json)) (key : String)
    (value : Json) :
    sortMembers (sortedMembers (members ++ [(key, value)])) =
      insertMember key value.sorted (sortMembers (sortedMembers members)) := by
  rw [sortedMembers_eq, sortedMembers_eq, List.map_append, sortMembers, List.foldl_append]
  rfl

mutual

/-- Whether no object in a document has two members with one key. -/
def isRepeatFree : Json → Bool
  | .array elements => areRepeatFree elements
  | .object members => decide (members.map Prod.fst).Nodup && membersRepeatFree members
  | _ => true

def areRepeatFree : List Json → Bool
  | [] => true
  | element :: rest => isRepeatFree element && areRepeatFree rest

def membersRepeatFree : List (String × Json) → Bool
  | [] => true
  | (_, value) :: rest => isRepeatFree value && membersRepeatFree rest

end

theorem isRepeatFree_array {elements : List Json} :
    (array elements).isRepeatFree = true ↔ ∀ element ∈ elements, element.isRepeatFree = true := by
  rw [isRepeatFree]
  induction elements with
  | nil => simp [areRepeatFree]
  | cons element elements ih => simp [areRepeatFree, ih]

theorem isRepeatFree_object {members : List (String × Json)} :
    (object members).isRepeatFree = true ↔
      (members.map Prod.fst).Nodup ∧ ∀ member ∈ members, member.2.isRepeatFree = true := by
  have hvalues : membersRepeatFree members = true ↔
      ∀ member ∈ members, member.2.isRepeatFree = true := by
    induction members with
    | nil => simp [membersRepeatFree]
    | cons member members ih => rw [membersRepeatFree, Bool.and_eq_true, ih, List.forall_mem_cons]
  rw [isRepeatFree, Bool.and_eq_true, decide_eq_true_iff, hvalues]

/-! ## Reading documents -/

namespace Reader

/-- Reads what follows a key, and keeps the member behind those before it. -/
def addMember (value : Reader Json) (members : List (String × Json)) (key : String) :
    Reader (List (String × Json)) := do
  colon
  let value ← value
  return members ++ [(key, value)]

/-- Reads a document in which containers are nested at most `levels` deep. This is `valueWithin`, but
all members are kept as they stand. -/
def documentWithin (levels : Nat) : Reader Json := fun text =>
  match text.dropWhile isBlank with
  | [] => malformedAhead .endInValue []
  | c :: rest =>
    if c = 'n' then (do word ['u', 'l', 'l']; return .null : Reader _) rest
    else if c = 't' then (do word ['r', 'u', 'e']; return .bool true : Reader _) rest
    else if c = 'f' then (do word ['a', 'l', 's', 'e']; return .bool false : Reader _) rest
    else if c = '-' ∨ c.isDigit then (Json.number <$> number) (c :: rest)
    else if c = '"' then (Json.string <$> quotedRest) rest
    else if c = '[' then
      match levels with
      | 0 => malformedAhead .tooDeep (c :: rest)
      | levels + 1 =>
        (do let read ← elements (documentWithin levels)
            endArray
            return .array read : Reader _) rest
    else if c = '\x7b' then
      match levels with
      | 0 => malformedAhead .tooDeep (c :: rest)
      | levels + 1 =>
        (do let read ← members (addMember (documentWithin levels)) []
            endObject
            return .object read : Reader _) rest
    else malformedAhead .valueExpected (c :: rest)

end Reader

def readDocument (text : List Char) : Except Fault Json :=
  Reader.whole (Reader.documentWithin depthLimit) text

/-! ## Values are sorted documents -/

namespace Reader

theorem id_map' (reader : Reader α) : id <$> reader = reader := by
  funext text
  rw [map_apply]
  cases reader text <;> rfl

theorem bind_assoc' (reader : Reader α) (next : α → Reader β) (last : β → Reader σ) :
    reader >>= next >>= last = reader >>= fun value => next value >>= last := by
  funext text
  rw [bind_apply, bind_apply, bind_apply]
  cases reader text <;> rfl

instance : LawfulMonad Reader := .mk' Reader id_map' (fun _ _ => rfl) bind_assoc'

/-- Elements that are read by way of others. -/
theorem elementsWithin_map (f : α → β) (item : Reader α) (bound : Nat) (isFirst : Bool) :
    elementsWithin (f <$> item) bound isFirst =
      List.map f <$> elementsWithin item bound isFirst := by
  induction bound generalizing isFirst with
  | zero => rfl
  | succ bound ih =>
    simp only [elementsWithin, map_bind, bind_map_left, ih]
    congr 1
    funext more
    cases more with
    | false => rfl
    | true => simp

/-- Members that are gathered by way of others. -/
theorem membersWithin_map {f : σ → τ} {step : σ → String → Reader σ} {step' : τ → String → Reader τ}
    (hstep : ∀ gathered key, step' (f gathered) key = f <$> step gathered key) (bound : Nat)
    (isFirst : Bool) (gathered : σ) :
    membersWithin step' bound isFirst (f gathered) =
      f <$> membersWithin step bound isFirst gathered := by
  induction bound generalizing isFirst gathered with
  | zero => rfl
  | succ bound ih =>
    simp only [membersWithin, map_bind]
    congr 1
    funext key?
    cases key? with
    | none => rfl
    | some key => simp [hstep, ih]

theorem elements_map (f : α → β) (item : Reader α) :
    elements (f <$> item) = List.map f <$> elements item :=
  funext fun text => congrFun (elementsWithin_map f item (text.length + 1) true) text

theorem members_map {f : σ → τ} {step : σ → String → Reader σ} {step' : τ → String → Reader τ}
    (hstep : ∀ gathered key, step' (f gathered) key = f <$> step gathered key) (start : σ) :
    members step' (f start) = f <$> members step start :=
  funext fun text => congrFun (membersWithin_map hstep (text.length + 1) true start) text

/-- What is gathered of an object as a value are the members of the document, sorted. -/
theorem members_insertMember (document : Reader Json) :
    members (fun gathered key => do
        colon
        let value ← sorted <$> document
        return insertMember key value gathered) [] =
      (fun members => sortMembers (sortedMembers members)) <$> members (addMember document) [] := by
  refine members_map (f := fun members => sortMembers (sortedMembers members)) ?_ []
  intro gathered key
  simp only [addMember, map_bind, bind_map_left, map_pure, sortMembers_sortedMembers_concat]

/-- A result with its value changed. -/
def mapResult (f : α → β) (result : Except Fault (α × List Char)) :
    Except Fault (β × List Char) :=
  Prod.map f id <$> result

theorem mapResult_apply (f : α → β) (reader : Reader α) (text : List Char) :
    mapResult f (reader text) = (f <$> reader) text := by
  rw [map_apply, mapResult]
  cases reader text <;> rfl

/-- A value is its document, sorted, if this holds of what is nested in it. -/
theorem valueWithin_step {levels : Nat}
    (h : ∀ inner, levels = inner + 1 → valueWithin inner = sorted <$> documentWithin inner) :
    valueWithin levels = sorted <$> documentWithin levels := by
  have hword : ∀ (letters : List Char) (value : Json), value.sorted = value →
      (do word letters; return value : Reader _) =
        sorted <$> (do word letters; return value : Reader _) := by
    intro letters value hvalue
    simp only [map_bind, map_pure, hvalue]
  funext text
  rw [← mapResult_apply, valueWithin, documentWithin]
  cases text.dropWhile isBlank with
  | nil => rfl
  | cons c rest =>
    -- one branch for each character that a document may start with: words, numerals, strings, and
    -- at last containers, where the levels count
    simp only [apply_ite (mapResult sorted), mapResult_apply]
    refine ite_congr rfl (fun _ => congrFun (hword _ _ (by rw [sorted])) rest) fun _ => ?_
    refine ite_congr rfl (fun _ => congrFun (hword _ _ (by rw [sorted])) rest) fun _ => ?_
    refine ite_congr rfl (fun _ => congrFun (hword _ _ (by rw [sorted])) rest) fun _ => ?_
    refine ite_congr rfl (fun _ => ?_) fun _ => ?_
    · simp only [Functor.map_map, sorted]
    refine ite_congr rfl (fun _ => ?_) fun _ => ?_
    · simp only [Functor.map_map, sorted]
    refine ite_congr rfl (fun _ => ?_) fun _ => ?_
    · cases levels with
      | zero => rfl
      | succ inner =>
        dsimp only
        rw [h inner rfl, elements_map]
        simp only [mapResult_apply, map_bind, bind_map_left, map_pure, sorted, sortedElements_eq]
    refine ite_congr rfl (fun _ => ?_) fun _ => rfl
    cases levels with
    | zero => rfl
    | succ inner =>
      dsimp only
      rw [h inner rfl, members_insertMember]
      simp only [mapResult_apply, map_bind, bind_map_left, map_pure, sorted]

/-- **What is read as a value is the document, sorted**, and so are the faults those of the
document. -/
theorem valueWithin_eq (levels : Nat) :
    valueWithin levels = sorted <$> documentWithin levels := by
  induction levels with
  | zero => exact valueWithin_step (by rintro _ ⟨⟩)
  | succ levels ih =>
    refine valueWithin_step ?_
    rintro _ ⟨⟩
    exact ih

theorem whole_map (f : α → β) (reader : Reader α) (text : List Char) :
    whole (f <$> reader) text = f <$> whole reader text := by
  have hmap : (do let value ← f <$> reader; blanks; return value : Reader _) =
      f <$> (do let value ← reader; blanks; return value : Reader _) := by
    simp only [bind_map_left, map_bind, map_pure]
  unfold whole
  rw [hmap, map_apply]
  generalize (do let value ← reader; blanks; return value : Reader _) text = result
  cases result with
  | error fault => rfl
  | ok read =>
    obtain ⟨value, rest⟩ := read
    cases rest <;> rfl

end Reader

/-- **The value of a text is its document, sorted.** -/
theorem read_eq (text : List Char) : read text = sorted <$> readDocument text := by
  rw [read, Reader.value, Reader.valueWithin_eq, Reader.whole_map, readDocument]

/-! ## What stands in a text -/

namespace Reader

/-- The elements of an array, one after the other; before all but the first stands a comma. The
closing bracket is left. -/
inductive ElementsAt (levels : Nat) : Bool → List Char → List Json → List Char → Prop where
  | none {isFirst : Bool} {text left : List Char}
    (hend : nextElement isFirst text = .ok (false, left)) : ElementsAt levels isFirst text [] left
  | more {isFirst : Bool} {text next after left : List Char} {element : Json}
    {elements : List Json} (hnext : nextElement isFirst text = .ok (true, next))
    (helement : documentWithin levels next = .ok (element, after))
    (hothers : ElementsAt levels false after elements left) :
    ElementsAt levels isFirst text (element :: elements) left

/-- The members of an object, one after the other. The closing brace is left. -/
inductive MembersAt (levels : Nat) :
    Bool → List Char → List (String × Json) → List Char → Prop where
  | none {isFirst : Bool} {text left : List Char}
    (hend : nextKey isFirst text = .ok (none, left)) : MembersAt levels isFirst text [] left
  | more {isFirst : Bool} {text next after inner left : List Char} {key : String} {value : Json}
    {members : List (String × Json)} (hkey : nextKey isFirst text = .ok (some key, next))
    (hcolon : colon next = .ok ((), inner))
    (hvalue : documentWithin levels inner = .ok (value, after))
    (hothers : MembersAt levels false after members left) :
    MembersAt levels isFirst text ((key, value) :: members) left

/-- A document by its first character, with the text after that character and the text left. -/
inductive DocumentAt : Char → List Char → Json → List Char → Prop where
  | null {after rest : List Char} (h : word ['u', 'l', 'l'] after = .ok ((), rest)) :
    DocumentAt 'n' after .null rest
  | true {after rest : List Char} (h : word ['r', 'u', 'e'] after = .ok ((), rest)) :
    DocumentAt 't' after (.bool true) rest
  | false {after rest : List Char} (h : word ['a', 'l', 's', 'e'] after = .ok ((), rest)) :
    DocumentAt 'f' after (.bool false) rest
  | number {c : Char} {after rest : List Char} {n : Number} (hc : c = '-' ∨ c.isDigit)
    (h : Reader.number (c :: after) = .ok (n, rest)) : DocumentAt c after (.number n) rest
  | string {after rest : List Char} {s : String} (h : quotedRest after = .ok (s, rest)) :
    DocumentAt '"' after (.string s) rest
  | array {levels : Nat} {after left rest : List Char} {elements : List Json}
    (helements : ElementsAt levels true after elements left)
    (hend : endArray left = .ok ((), rest)) : DocumentAt '[' after (.array elements) rest
  | object {levels : Nat} {after left rest : List Char} {members : List (String × Json)}
    (hmembers : MembersAt levels true after members left)
    (hsize : members.length < after.length + 1) (hend : endObject left = .ok ((), rest)) :
    DocumentAt '\x7b' after (.object members) rest

theorem elementsAt_of_elementsWithin {levels bound : Nat} {isFirst : Bool} {text left : List Char}
    {elements : List Json}
    (h : elementsWithin (documentWithin levels) bound isFirst text = .ok (elements, left)) :
    ElementsAt levels isFirst text elements left := by
  induction bound generalizing isFirst text elements with
  | zero => cases h
  | succ bound ih =>
    obtain ⟨more, next, hnext, h⟩ := bind_eq_ok_iff.1 h
    cases more with
    | false =>
      cases h
      exact .none hnext
    | true =>
      obtain ⟨element, after, helement, h⟩ := bind_eq_ok_iff.1 h
      obtain ⟨others, _, hothers, h⟩ := bind_eq_ok_iff.1 h
      cases h
      exact .more hnext helement (ih hothers)

/-- Members stand behind those gathered before, and they are fewer than the loop may go round. -/
theorem membersAt_of_membersWithin {levels bound : Nat} {isFirst : Bool} {text left : List Char}
    {gathered members : List (String × Json)}
    (h : membersWithin (addMember (documentWithin levels)) bound isFirst gathered text =
      .ok (members, left)) :
    ∃ others, members = gathered ++ others ∧ others.length < bound ∧
      MembersAt levels isFirst text others left := by
  induction bound generalizing isFirst text gathered with
  | zero => cases h
  | succ bound ih =>
    obtain ⟨key?, next, hkey, h⟩ := bind_eq_ok_iff.1 h
    cases key? with
    | none =>
      cases h
      exact ⟨[], (List.append_nil _).symm, Nat.succ_pos _, .none hkey⟩
    | some key =>
      obtain ⟨_, after, hstep, h⟩ := bind_eq_ok_iff.1 h
      obtain ⟨_, inner, hcolon, hstep⟩ := bind_eq_ok_iff.1 hstep
      obtain ⟨value, _, hvalue, hstep⟩ := bind_eq_ok_iff.1 hstep
      cases hstep
      obtain ⟨others, rfl, hsize, hothers⟩ := ih h
      exact ⟨(key, value) :: others, List.append_assoc _ _ _, Nat.succ_lt_succ hsize,
        .more hkey hcolon hvalue hothers⟩

/-- **What was read as a document stands in the text.** -/
theorem documentAt_of_documentWithin {levels : Nat} {text rest : List Char} {document : Json}
    (h : documentWithin levels text = .ok (document, rest)) :
    ∃ c after, text.dropWhile isBlank = c :: after ∧ DocumentAt c after document rest := by
  rw [documentWithin] at h
  cases htext : text.dropWhile isBlank with
  | nil =>
    rw [htext] at h
    cases h
  | cons c after =>
    refine ⟨c, after, rfl, ?_⟩
    rw [htext] at h
    dsimp only at h
    by_cases hnull : c = 'n'
    · subst hnull
      obtain ⟨_, _, hword, hlast⟩ := bind_eq_ok_iff.1 h
      cases hlast
      exact .null hword
    by_cases htrue : c = 't'
    · subst htrue
      obtain ⟨_, _, hword, hlast⟩ := bind_eq_ok_iff.1 h
      cases hlast
      exact .true hword
    by_cases hfalse : c = 'f'
    · subst hfalse
      obtain ⟨_, _, hword, hlast⟩ := bind_eq_ok_iff.1 h
      cases hlast
      exact .false hword
    rw [if_neg hnull, if_neg htrue, if_neg hfalse] at h
    by_cases hnumber : c = '-' ∨ c.isDigit = true
    · rw [if_pos hnumber] at h
      obtain ⟨n, hread, rfl⟩ := map_eq_ok_iff.1 h
      exact .number hnumber hread
    rw [if_neg hnumber] at h
    by_cases hquote : c = '"'
    · subst hquote
      obtain ⟨s, hread, rfl⟩ := map_eq_ok_iff.1 h
      exact .string hread
    rw [if_neg hquote] at h
    by_cases hbracket : c = '['
    · subst hbracket
      cases levels with
      | zero => cases h
      | succ levels =>
        obtain ⟨elements, left, helements, h⟩ := bind_eq_ok_iff.1 h
        obtain ⟨_, _, hend, hlast⟩ := bind_eq_ok_iff.1 h
        cases hlast
        exact .array (elementsAt_of_elementsWithin helements) hend
    rw [if_neg hbracket] at h
    by_cases hbrace : c = '\x7b'
    · subst hbrace
      cases levels with
      | zero => cases h
      | succ levels =>
        obtain ⟨read, left, hread, h⟩ := bind_eq_ok_iff.1 h
        obtain ⟨_, _, hend, hlast⟩ := bind_eq_ok_iff.1 h
        cases hlast
        obtain ⟨others, rfl, hsize, hmembers⟩ := membersAt_of_membersWithin hread
        exact .object hmembers hsize hend
    rw [if_neg hbrace] at h
    cases h

end Reader

end SchemaScalar.Json
