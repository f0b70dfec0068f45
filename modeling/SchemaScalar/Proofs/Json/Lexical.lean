import SchemaScalar.Json.Quoted

/-!
# Strings read back, and how values start

What the printer writes for a string, the reader takes off the front of a text as that string, up to
its quote whatever follows (`quotedRest_escaped`). The first character that the printer writes tells
that a value starts, and which kind it is (`write_head`).
-/

namespace SchemaScalar.Json

open Text (decimal)

/-! ## Characters of strings -/

theorem hexValue?_digitChar : ∀ n < 16, hexValue? (Nat.digitChar n) = some n := by decide

theorem hexNumber?_hexDigits {code : Nat} (h : code < 65536) :
    hexNumber? (hexDigits code) = some code := by
  have hdigit (n : Nat) : hexValue? (Nat.digitChar (n % 16)) = some (n % 16) :=
    hexValue?_digitChar _ (Nat.mod_lt n (by decide))
  simp only [hexNumber?, hexDigits, List.map_cons, List.map_nil, List.foldlM_cons, List.foldlM_nil,
    hdigit, Option.map_some, Option.bind_eq_bind, Option.bind_some, Option.pure_def]
  congr 1
  omega

theorem hexUnit_hexDigits {code : Nat} (h : code < 65536) (rest : List Char) :
    Reader.hexUnit (hexDigits code ++ rest) = .ok (code, rest) := by
  have hcode := hexNumber?_hexDigits h
  simp only [hexDigits, List.map_cons, List.map_nil] at hcode
  simp only [hexDigits, List.map_cons, List.map_nil, List.cons_append, List.nil_append,
    Reader.hexUnit, hcode]

/-- A character below the surrogates is read back from its code. -/
theorem hexEscape_hexDigits {c : Char} (h : c.toNat < 0xD800) (rest : List Char) :
    Reader.hexEscape (hexDigits c.toNat ++ rest) = .ok (c, rest) := by
  have hunit := hexUnit_hexDigits (show c.toNat < 65536 by omega) rest
  have hlow : ¬ (0xDC00 ≤ c.toNat && c.toNat ≤ 0xDFFF) = true := by simp; omega
  have hhigh : ¬ (0xD800 ≤ c.toNat && c.toNat ≤ 0xDBFF) = true := by simp; omega
  rw [Reader.hexEscape, Reader.bind_apply, hunit]
  simp only [if_neg hlow, if_neg hhigh, Char.ofNat_toNat]
  rfl

/-- **A character in a string is escaped by a letter or by its code, or stands for itself.** -/
theorem escapeChar_forms (c : Char) :
    (∃ letter, escapeChar c = ['\\', letter] ∧ Reader.letterEscape? letter = some c) ∨
    (escapeChar c = '\\' :: 'u' :: hexDigits c.toNat ∧ c < ' ') ∨
    (escapeChar c = [c] ∧ c ≠ '"' ∧ c ≠ '\\' ∧ ¬ c < ' ') := by
  unfold escapeChar
  by_cases hquote : c = '"'
  · exact .inl ⟨'"', if_pos hquote, by rw [hquote]; rfl⟩
  rw [if_neg hquote]
  by_cases hback : c = '\\'
  · exact .inl ⟨'\\', if_pos hback, by rw [hback]; rfl⟩
  rw [if_neg hback]
  by_cases hb : c = '\x08'
  · exact .inl ⟨'b', if_pos hb, by rw [hb]; rfl⟩
  rw [if_neg hb]
  by_cases ht : c = '\t'
  · exact .inl ⟨'t', if_pos ht, by rw [ht]; rfl⟩
  rw [if_neg ht]
  by_cases hn : c = '\n'
  · exact .inl ⟨'n', if_pos hn, by rw [hn]; rfl⟩
  rw [if_neg hn]
  by_cases hf : c = '\x0c'
  · exact .inl ⟨'f', if_pos hf, by rw [hf]; rfl⟩
  rw [if_neg hf]
  by_cases hr : c = '\r'
  · exact .inl ⟨'r', if_pos hr, by rw [hr]; rfl⟩
  rw [if_neg hr]
  by_cases hcontrol : c < ' '
  · exact .inr (.inl ⟨if_pos hcontrol, hcontrol⟩)
  · exact .inr (.inr ⟨if_neg hcontrol, hquote, hback, hcontrol⟩)

/-- A character in a string is read back after the backslash, or stands for itself. -/
theorem escapeChar_cases (c : Char) :
    (∃ code, escapeChar c = '\\' :: code ∧
      ∀ rest, Reader.escape id Reader.hexEscape (code ++ rest) = .ok (c, rest)) ∨
    (escapeChar c = [c] ∧ c ≠ '"' ∧ c ≠ '\\' ∧ ¬ c < ' ') := by
  obtain ⟨letter, hform, hletter⟩ | ⟨hform, hcontrol⟩ | hself := escapeChar_forms c
  · refine .inl ⟨[letter], hform, fun rest => ?_⟩
    simp only [List.singleton_append, Reader.escape, hletter, id]
  · have hcode : c.toNat < 32 := hcontrol
    exact .inl ⟨'u' :: hexDigits c.toNat, hform, hexEscape_hexDigits (by omega)⟩
  · exact .inr hself

/-! ## Strings -/

/-- The characters of a string are read back up to its quote, if the bound leaves room for them. -/
theorem charactersWithin_escaped (chars rest : List Char) {bound : Nat} (h : chars.length < bound) :
    Reader.charactersWithin bound (chars.flatMap escapeChar ++ '"' :: rest) =
      .ok (chars, rest) := by
  induction chars generalizing bound with
  | nil =>
    cases bound with
    | zero => exact absurd h (Nat.not_lt_zero _)
    | succ bound => rfl
  | cons c chars ih =>
    cases bound with
    | zero => exact absurd h (Nat.not_lt_zero _)
    | succ bound =>
      have hrest := ih (Nat.lt_of_succ_lt_succ h)
      rw [List.flatMap_cons, List.append_assoc]
      obtain ⟨code, hcode, hread⟩ | ⟨hself, hquote, hback, hcontrol⟩ := escapeChar_cases c
      · rw [hcode, List.cons_append, Reader.charactersWithin]
        simp only [Reader.bind_apply, hread, hrest, Reader.pure_apply]
      · rw [hself, List.singleton_append, Reader.charactersWithin]
        simp only [if_neg hcontrol, Reader.bind_apply, hrest, Reader.pure_apply]

theorem length_le_escaped (chars : List Char) :
    chars.length ≤ (chars.flatMap escapeChar).length := by
  induction chars with
  | nil => exact Nat.le_refl 0
  | cons c chars ih =>
    have hc : 0 < (escapeChar c).length := by
      obtain ⟨code, hcode, -⟩ | ⟨hself, -⟩ := escapeChar_cases c
      · rw [hcode]
        exact Nat.succ_pos _
      · rw [hself]
        exact Nat.succ_pos _
    rw [List.flatMap_cons, List.length_append, List.length_cons]
    omega

/-- **A string is read back up to its closing quote**, whatever follows. -/
theorem quotedRest_escaped (s : String) (rest : List Char) :
    Reader.quotedRest (s.toList.flatMap escapeChar ++ '"' :: rest) = .ok (s, rest) := by
  have hbound : s.toList.length < (s.toList.flatMap escapeChar ++ '"' :: rest).length + 1 := by
    have h := length_le_escaped s.toList
    rw [List.length_append]
    omega
  rw [Reader.quotedRest, Reader.bind_apply, charactersWithin_escaped _ _ hbound]
  simp only [Reader.pure_apply, String.ofList_toList]

/-! ## Numbers -/

def IsNumeric (c : Char) : Prop := c.isDigit = true ∨ c = '-' ∨ c = '+' ∨ c = '.' ∨ c = 'e'

instance (c : Char) : Decidable (IsNumeric c) := inferInstanceAs (Decidable (_ ∨ _))

theorem IsNumeric.starts {c : Char} (h : IsNumeric c) :
    Reader.isBlank c = false ∧ c ≠ ']' ∧ c ≠ 'n' := by
  have hne : ∀ other : Char, ¬ IsNumeric other → c ≠ other := by
    rintro other hother rfl
    exact hother h
  refine ⟨?_, hne _ (by decide), hne _ (by decide)⟩
  have hspace := hne ' ' (by decide)
  have htab := hne '\t' (by decide)
  have hline := hne '\n' (by decide)
  have hreturn := hne '\r' (by decide)
  simp [Reader.isBlank, hspace, htab, hline, hreturn]

theorem isNumeric_toDigits (n : Nat) : ∀ c ∈ Nat.toDigits 10 n, IsNumeric c := fun _ h =>
  .inl (Nat.isDigit_of_mem_toDigits (by decide) (by decide) h)

theorem isNumeric_decimal (n : Int) : ∀ c ∈ decimal n, IsNumeric c := by
  unfold decimal
  split
  · exact List.forall_mem_cons.2 ⟨.inr (.inl rfl), isNumeric_toDigits _⟩
  · exact isNumeric_toDigits _

theorem isDigit_shortest (x : Binary64.Finite) (tie : Tie) :
    ∀ c ∈ (x.shortest tie).digits, c.isDigit = true := by
  unfold Binary64.Finite.shortest
  split
  · simp
  · intro c hc
    have hdigit := (List.dropWhile_sublist _).mem (List.mem_reverse.1 hc)
    exact Nat.isDigit_of_mem_toDigits (by decide) (by decide) (List.mem_reverse.1 hdigit)

section Scientific

variable {d : Scientific} (hd : ∀ c ∈ d.digits, IsNumeric c)
include hd

theorem isNumeric_positionalText (pointed : Bool) :
    ∀ c ∈ d.positionalText pointed, IsNumeric c := by
  have hzeros : ∀ n, ∀ c ∈ List.replicate n '0', IsNumeric c := fun n c hc =>
    (List.mem_replicate.1 hc).2 ▸ .inl rfl
  have hwhole : ∀ c ∈ d.split.1, IsNumeric c := by
    unfold Scientific.split
    split
    · exact List.forall_mem_singleton.2 (.inl rfl)
    · exact List.forall_mem_append.2 ⟨fun c hc => hd c (List.mem_of_mem_take hc), hzeros _⟩
  have hfraction : ∀ c ∈ d.split.2, IsNumeric c := by
    unfold Scientific.split
    split
    · exact List.forall_mem_append.2 ⟨hzeros _, hd⟩
    · exact fun c hc => hd c (List.mem_of_mem_drop hc)
  have hpoint : IsNumeric '.' := by decide
  unfold Scientific.positionalText
  split
  · next heq =>
    rw [heq] at hwhole
    split
    · have hzero : IsNumeric '0' := by decide
      exact List.forall_mem_append.2
        ⟨hwhole, List.forall_mem_cons.2 ⟨hpoint, List.forall_mem_singleton.2 hzero⟩⟩
    · exact hwhole
  · next heq =>
    rw [heq] at hwhole hfraction
    exact List.forall_mem_append.2 ⟨hwhole, List.forall_mem_cons.2 ⟨hpoint, hfraction⟩⟩

theorem isNumeric_exponentText : ∀ c ∈ d.exponentText, IsNumeric c := by
  have hsign : IsNumeric (if d.exponent < 0 then '-' else '+') := by
    split <;> decide
  have hexponent : ∀ c ∈ 'e' :: (if d.exponent < 0 then '-' else '+') ::
      Nat.toDigits 10 d.exponent.natAbs, IsNumeric c :=
    List.forall_mem_cons.2 ⟨by decide,
      List.forall_mem_cons.2 ⟨hsign, isNumeric_toDigits _⟩⟩
  unfold Scientific.exponentText
  refine List.forall_mem_append.2 ⟨?_, hexponent⟩
  -- the mantissa has a point after its first digit if it has more
  split
  · simp
  · next heq => exact heq ▸ hd
  · next heq =>
    rw [heq] at hd
    obtain ⟨hfirst, hrest⟩ := List.forall_mem_cons.1 hd
    exact List.forall_mem_cons.2 ⟨hfirst, List.forall_mem_cons.2 ⟨by decide, hrest⟩⟩

end Scientific

theorem positionalText_ne_nil (d : Scientific) (pointed : Bool) :
    d.positionalText pointed ≠ [] := by
  have hwhole : d.split.1 ≠ [] := by
    unfold Scientific.split
    split
    · exact List.cons_ne_nil _ _
    · refine List.ne_nil_of_length_pos ?_
      simp only [List.length_append, List.length_take, List.length_replicate]
      omega
  unfold Scientific.positionalText
  split
  · next heq =>
    rw [heq] at hwhole
    split
    · simp
    · exact hwhole
  · simp

/-- A number is written in characters of numerals, at least one. -/
theorem Number.text_cases (n : Number) : n.text ≠ [] ∧ ∀ c ∈ n.text, IsNumeric c := by
  cases n with
  | integer n _ _ =>
    refine ⟨?_, isNumeric_decimal n⟩
    unfold text decimal
    dsimp only
    split
    · simp
    · exact Nat.toDigits_ne_nil
  | float x =>
    have hd : ∀ c ∈ (x.shortest FloatStyle.json.tie).digits, IsNumeric c := fun c hc =>
      .inl (isDigit_shortest x _ c hc)
    unfold text Binary64.Finite.text
    dsimp only
    have hmagnitude : ∀ magnitude : List Char,
        (magnitude ≠ [] ∧ ∀ c ∈ magnitude, IsNumeric c) →
          (if x.negative then '-' :: magnitude else magnitude) ≠ [] ∧
            ∀ c ∈ (if x.negative then '-' :: magnitude else magnitude), IsNumeric c := by
      intro magnitude h
      split
      · exact ⟨by simp, List.forall_mem_cons.2 ⟨by decide, h.2⟩⟩
      · exact h
    refine hmagnitude _ ?_
    split
    · exact ⟨positionalText_ne_nil _ _, isNumeric_positionalText hd _⟩
    · exact ⟨by simp [Scientific.exponentText], isNumeric_exponentText hd⟩

/-! ## The first character of a value -/

/-- **A value starts with a character that is no blank and closes nothing**; only `null` starts as
it does. -/
theorem write_head (value : Json) :
    ∃ c rest, value.write = c :: rest ∧ Reader.isBlank c = false ∧ c ≠ ']' ∧
      (c = 'n' → value = .null) := by
  have hother {c : Char} {rest : List Char} (htext : value.write = c :: rest)
      (hblank : Reader.isBlank c = false) (hbracket : c ≠ ']') (hletter : c ≠ 'n') :
      ∃ c rest, value.write = c :: rest ∧ Reader.isBlank c = false ∧ c ≠ ']' ∧
        (c = 'n' → value = .null) :=
    ⟨c, rest, htext, hblank, hbracket, fun h => absurd h hletter⟩
  cases value with
  | null => exact ⟨'n', _, by rw [write], by decide, by decide, fun _ => rfl⟩
  | bool b =>
    cases b with
    | true => exact hother (c := 't') (by rw [write]) (by decide) (by decide) (by decide)
    | false => exact hother (c := 'f') (by rw [write]) (by decide) (by decide) (by decide)
  | number n =>
    obtain ⟨hne, hn⟩ := n.text_cases
    obtain ⟨c, rest, htext⟩ := List.exists_cons_of_ne_nil hne
    obtain ⟨hblank, hbracket, hletter⟩ := (hn c (htext ▸ List.mem_cons_self)).starts
    exact hother (by rw [write, htext]) hblank hbracket hletter
  | string s => exact hother (c := '"') (by rw [write]; rfl) (by decide) (by decide) (by decide)
  | array elements =>
    exact hother (c := '[') (by rw [write]; rfl) (by decide) (by decide) (by decide)
  | object members =>
    exact hother (c := '\x7b') (by rw [write]; rfl) (by decide) (by decide) (by decide)

end SchemaScalar.Json
