import SchemaScalar.Proofs.Calendar.Item
import SchemaScalar.Proofs.Json.Container

/-!
# What layouts have read

The other way round: from what an item has taken to how it was written. `Item.Takes` lists for each
item the texts that it can take and what it notes of them, whatever follows in the text, and
`Item.takes_of_take` says that an item never takes anything else. A layout that reads a text thereby
divides it among its items (`Layout.takes_of_read`).
-/

namespace SchemaScalar.Calendar

open Json (exists_of_bind_eq_ok)
open Text (decimalValue)

/-! ## Pieces of text -/

def AreDigits (text : List Char) : Prop := ∀ c ∈ text, c.isDigit = true

def AreBlanks (text : List Char) : Prop := ∀ c ∈ text, Text.isBlank c = true

/-- A year: up to four digits, or any count of them after a sign. -/
inductive SpellsYear : List Char → Int → Prop where
  | plain {digits : List Char} (hd : AreDigits digits) (hne : digits ≠ [])
      (hl : digits.length ≤ 4) : SpellsYear digits (decimalValue digits)
  | plus {digits : List Char} (hd : AreDigits digits) (hne : digits ≠ []) :
      SpellsYear ('+' :: digits) (decimalValue digits)
  | minus {digits : List Char} (hd : AreDigits digits) (hne : digits ≠ []) :
      SpellsYear ('-' :: digits) (-(decimalValue digits : Int))

/-- Two digits, which are a number in the range of a field. -/
structure SpellsExactly (part : Part) (digits : List Char) (n : Nat) : Prop where
  areDigits : AreDigits digits
  length_eq : digits.length = 2
  value_eq : decimalValue digits = n
  range : part.range.1 ≤ n ∧ n ≤ part.range.2

/-- One digit or two after any white space. -/
inductive SpellsLoosely (part : Part) : List Char → Nat → Prop where
  | intro {blanks digits : List Char} (hb : AreBlanks blanks) (hd : AreDigits digits)
      (hl : digits.length = 1 ∨ digits.length = 2)
      (hr : part.range.1 ≤ decimalValue digits ∧ decimalValue digits ≤ part.range.2) :
      SpellsLoosely part (blanks ++ digits) (decimalValue digits)

/-- The fraction of a second: nothing, or a point and digits. -/
inductive SpellsFraction : List Char → Prop where
  | none : SpellsFraction []
  | digits {digits : List Char} (hd : AreDigits digits) (hne : digits ≠ []) :
      SpellsFraction ('.' :: digits)

/-- A sign, two digits for the hours and two for the minutes, and between the two what `between`
allows. There are two characters for minus. -/
inductive SpellsOffset (between : List Char → Prop) : List Char → Prop where
  | intro {sign : Char} {hours gap minutes : List Char}
      (hs : sign = '+' ∨ sign = '-' ∨ sign = '\u2212')
      (hh : AreDigits hours) (hhl : hours.length = 2) (hg : between gap)
      (hm : AreDigits minutes) (hml : minutes.length = 2) (hmv : decimalValue minutes ≤ 59) :
      SpellsOffset between (sign :: (hours ++ (gap ++ minutes)))

/-! ## What is taken off the front of a text -/

theorem eq_append_dropWhile (p : Char → Bool) (text : List Char) :
    ∃ front, text = front ++ text.dropWhile p ∧ ∀ c ∈ front, p c = true :=
  ⟨text.takeWhile p, List.takeWhile_append_dropWhile.symm, List.all_eq_true.1 List.all_takeWhile⟩

theorem takeDigits_eq_ok {limit : Nat} {text digits rest : List Char} (hlim : 0 < limit)
    (h : takeDigits limit text = .ok (digits, rest)) :
    text = digits ++ rest ∧ AreDigits digits ∧ digits ≠ [] ∧ digits.length ≤ limit := by
  unfold takeDigits at h
  split at h
  · cases h
  · next c tail =>
    split at h
    · next hc =>
      obtain ⟨hd, hr⟩ := Prod.mk.inj (Except.ok.inj h)
      obtain ⟨limit, rfl⟩ : ∃ n, limit = n + 1 := ⟨limit - 1, by omega⟩
      have hprefix : digits <+: c :: tail := by
        rw [← hd]
        exact (List.takeWhile_prefix _).trans (List.take_prefix _ _)
      refine ⟨?_, ?_, ?_, ?_⟩
      · rw [← hr, hd]
        exact (List.prefix_iff_eq_append.1 hprefix).symm
      · rw [← hd]
        exact List.all_eq_true.1 List.all_takeWhile
      · rw [← hd, List.take_succ_cons, List.takeWhile_cons_of_pos hc]
        exact List.cons_ne_nil _ _
      · rw [← hd]
        exact Nat.le_trans (List.takeWhile_prefix _).length_le (List.length_take_le _ _)
    · cases h

/-- With no limit all digits at the front are taken. -/
theorem takeDigits_length_eq_ok {text digits rest : List Char}
    (h : takeDigits text.length text = .ok (digits, rest)) :
    text = digits ++ rest ∧ AreDigits digits ∧ digits ≠ [] := by
  cases text with
  | nil => cases h
  | cons c tail =>
    obtain ⟨ht, hd, hne, -⟩ := takeDigits_eq_ok (Nat.zero_lt_succ _) h
    exact ⟨ht, hd, hne⟩

theorem takeExactly_eq_ok {count : Nat} {text digits rest : List Char}
    (h : takeExactly count text = .ok (digits, rest)) :
    text = digits ++ rest ∧ AreDigits digits ∧ digits.length = count := by
  simp only [takeExactly] at h
  split at h
  · cases h
  · next hd =>
    split at h
    · cases h
    · next hl =>
      obtain ⟨rfl, rfl⟩ := Prod.mk.inj (Except.ok.inj h)
      refine ⟨(List.take_append_drop count text).symm, ?_, ?_⟩
      · intro c hc
        simp only [Bool.not_eq_true, List.any_eq_false, Bool.not_eq_true', Bool.not_eq_false] at hd
        exact hd c hc
      · have := List.length_take_le count text
        omega

theorem takeMark_eq_ok {mark : Char} {text rest : List Char}
    (h : takeMark mark text = .ok rest) : text = mark :: rest := by
  unfold takeMark at h
  split at h
  · cases h
  · split at h
    · next hc => rw [hc, Except.ok.inj h]
    · cases h

theorem takeSign_eq_ok {text rest : List Char} {isNegative : Bool}
    (h : takeSign text = .ok (isNegative, rest)) :
    ∃ sign, text = sign :: rest ∧ (sign = '+' ∨ sign = '-' ∨ sign = '\u2212') := by
  unfold takeSign at h
  split at h
  · cases h
  · next c tail =>
    split at h
    · next hc =>
      obtain ⟨-, rfl⟩ := Prod.mk.inj (Except.ok.inj h)
      exact ⟨c, rfl, .inl hc⟩
    · split at h
      · next hc =>
        obtain ⟨-, rfl⟩ := Prod.mk.inj (Except.ok.inj h)
        exact ⟨c, rfl, .inr hc⟩
      · cases h

theorem takeYear_eq_ok {text rest : List Char} {year : Int} (h : takeYear text = .ok (year, rest)) :
    ∃ piece, text = piece ++ rest ∧ SpellsYear piece year := by
  have hrange : ∀ {n : Int} {left : List Char},
      (if -0x80000000 ≤ n ∧ n < 0x80000000 then .ok (n, left) else .error .outOfRange) =
        (.ok (year, rest) : Except Problem (Int × List Char)) → n = year ∧ left = rest := by
    intro n left hn
    split at hn
    · exact Prod.mk.inj (Except.ok.inj hn)
    · cases hn
  unfold takeYear at h
  split at h
  · obtain ⟨⟨digits, left⟩, hd, h⟩ := exists_of_bind_eq_ok h
    dsimp only at h
    rw [pure_bind] at h
    obtain ⟨rfl, rfl⟩ := hrange h
    obtain ⟨rfl, hall, hne⟩ := takeDigits_length_eq_ok hd
    exact ⟨_, rfl, .plus hall hne⟩
  · obtain ⟨⟨digits, left⟩, hd, h⟩ := exists_of_bind_eq_ok h
    dsimp only at h
    rw [pure_bind] at h
    obtain ⟨rfl, rfl⟩ := hrange h
    obtain ⟨rfl, hall, hne⟩ := takeDigits_length_eq_ok hd
    exact ⟨_, rfl, .minus hall hne⟩
  · obtain ⟨⟨digits, left⟩, hd, h⟩ := exists_of_bind_eq_ok h
    dsimp only at h
    rw [pure_bind] at h
    obtain ⟨rfl, rfl⟩ := hrange h
    obtain ⟨rfl, hall, hne, hl⟩ := takeDigits_eq_ok (by decide) hd
    exact ⟨_, rfl, .plain hall hne hl⟩

theorem takeOffset_eq_ok {between : List Char → Except Problem (List Char)}
    {Between : List Char → Prop}
    (hb : ∀ {text rest}, between text = .ok rest → ∃ gap, text = gap ++ rest ∧ Between gap)
    {reading noted : Reading} {text rest : List Char}
    (h : takeOffset between reading text = .ok (noted, rest)) :
    ∃ piece, text = piece ++ rest ∧ SpellsOffset Between piece ∧
      ∃ ahead, noted = { reading with offset := ahead } := by
  unfold takeOffset at h
  obtain ⟨⟨isNegative, text₁⟩, hs, h⟩ := exists_of_bind_eq_ok h
  obtain ⟨⟨hours, text₂⟩, hh, h⟩ := exists_of_bind_eq_ok h
  obtain ⟨text₃, hg, h⟩ := exists_of_bind_eq_ok h
  obtain ⟨⟨minutes, text₄⟩, hm, h⟩ := exists_of_bind_eq_ok h
  dsimp only at h
  split at h
  · cases h
  · next hv =>
    obtain ⟨rfl, rfl⟩ := Prod.mk.inj (Except.ok.inj h)
    obtain ⟨sign, rfl, hsign⟩ := takeSign_eq_ok hs
    obtain ⟨rfl, hhd, hhl⟩ := takeExactly_eq_ok hh
    obtain ⟨gap, rfl, hgap⟩ := hb hg
    obtain ⟨rfl, hmd, hml⟩ := takeExactly_eq_ok hm
    refine ⟨_, ?_, .intro hsign hhd hhl hgap hmd hml (Nat.not_lt.1 hv), _, rfl⟩
    simp only [List.cons_append, List.append_assoc]

/-! ## What items take -/

/-- What an item takes and notes, from one reading to the next. -/
inductive Item.Takes : Item → List Char → Reading → Reading → Prop where
  | mark (c : Char) (reading : Reading) : Takes (.mark c) [c] reading reading
  | blanks {blanks : List Char} (hb : AreBlanks blanks) (reading : Reading) :
      Takes .blanks blanks reading reading
  | separator {c : Char} (hc : c = 'T' ∨ c = 't' ∨ c = ' ') (reading : Reading) :
      Takes .separator [c] reading reading
  | exactYear {digits : List Char} (hd : AreDigits digits) (hl : digits.length = 4)
      (reading : Reading) :
      Takes .exactYear digits reading { reading with year := decimalValue digits }
  | exact {part : Part} {digits : List Char} {n : Nat} (h : SpellsExactly part digits n)
      (reading : Reading) : Takes (.exact part) digits reading (part.put reading n)
  | year {blanks piece : List Char} {year : Int} (hb : AreBlanks blanks)
      (hy : SpellsYear piece year) (reading : Reading) :
      Takes .year (blanks ++ piece) reading { reading with year := year }
  | number {part : Part} {piece : List Char} {n : Nat} (h : SpellsLoosely part piece n)
      (reading : Reading) : Takes (.number part) piece reading (part.put reading n)
  | fraction {piece : List Char} (h : SpellsFraction piece) (reading : Reading) (nanos : Nat) :
      Takes .fraction piece reading { reading with nanos := nanos }
  | utc {c : Char} (hc : c = 'Z' ∨ c = 'z') (reading : Reading) :
      Takes .exactOffset [c] reading reading
  | exactOffset {piece : List Char} (h : SpellsOffset (· = [':']) piece) (reading : Reading)
      (ahead : Int) : Takes .exactOffset piece reading { reading with offset := ahead }
  | offset {blanks piece : List Char} (hb : AreBlanks blanks)
      (h : SpellsOffset (∀ c ∈ ·, c = ':' ∨ Text.isBlank c = true) piece) (reading : Reading)
      (ahead : Int) : Takes .offset (blanks ++ piece) reading { reading with offset := ahead }

namespace Item

theorem dropBlanks_eq (text : List Char) :
    ∃ blanks, text = blanks ++ dropBlanks text ∧ AreBlanks blanks :=
  eq_append_dropWhile _ text

theorem note_eq_ok {part : Part} {reading noted : Reading} {n : Nat}
    (h : part.note reading n = .ok noted) :
    noted = part.put reading n ∧ part.range.1 ≤ n ∧ n ≤ part.range.2 := by
  rw [Part.note_eq] at h
  split at h
  · cases h
  · exact ⟨(Except.ok.inj h).symm, by omega⟩

/-- **An item takes nothing but what is listed for it.** -/
theorem takes_of_take {item : Item} {reading noted : Reading} {text rest : List Char}
    (h : item.take reading text = .ok (noted, rest)) :
    ∃ piece, text = piece ++ rest ∧ item.Takes piece reading noted := by
  cases item with
  | mark c =>
    obtain ⟨rest', hm, h⟩ := exists_of_bind_eq_ok h
    obtain ⟨rfl, rfl⟩ := Prod.mk.inj (Except.ok.inj h)
    exact ⟨[c], takeMark_eq_ok hm, .mark c _⟩
  | blanks =>
    obtain ⟨rfl, rfl⟩ := Prod.mk.inj (Except.ok.inj h)
    obtain ⟨blanks, ht, hb⟩ := dropBlanks_eq text
    exact ⟨blanks, ht, .blanks hb _⟩
  | separator =>
    simp only [take] at h
    split at h
    · cases h
    · split at h
      · next hc =>
        obtain ⟨rfl, rfl⟩ := Prod.mk.inj (Except.ok.inj h)
        exact ⟨[_], rfl, .separator hc _⟩
      · cases h
  | exactYear =>
    obtain ⟨⟨digits, rest'⟩, hd, h⟩ := exists_of_bind_eq_ok h
    obtain ⟨rfl, rfl⟩ := Prod.mk.inj (Except.ok.inj h)
    obtain ⟨rfl, hall, hl⟩ := takeExactly_eq_ok hd
    exact ⟨digits, rfl, .exactYear hall hl _⟩
  | exact part =>
    obtain ⟨⟨digits, rest'⟩, hd, h⟩ := exists_of_bind_eq_ok h
    obtain ⟨noted', hn, h⟩ := exists_of_bind_eq_ok h
    obtain ⟨rfl, rfl⟩ := Prod.mk.inj (Except.ok.inj h)
    obtain ⟨rfl, hall, hl⟩ := takeExactly_eq_ok hd
    obtain ⟨rfl, hr⟩ := note_eq_ok hn
    exact ⟨digits, rfl, .exact ⟨hall, hl, rfl, hr⟩ _⟩
  | year =>
    obtain ⟨⟨n, rest'⟩, hy, h⟩ := exists_of_bind_eq_ok h
    obtain ⟨rfl, rfl⟩ := Prod.mk.inj (Except.ok.inj h)
    obtain ⟨blanks, ht, hb⟩ := dropBlanks_eq text
    obtain ⟨piece, hp, hy⟩ := takeYear_eq_ok hy
    refine ⟨blanks ++ piece, ?_, .year hb hy _⟩
    rw [ht, hp, List.append_assoc]
  | number part =>
    obtain ⟨⟨digits, rest'⟩, hd, h⟩ := exists_of_bind_eq_ok h
    obtain ⟨noted', hn, h⟩ := exists_of_bind_eq_ok h
    obtain ⟨rfl, rfl⟩ := Prod.mk.inj (Except.ok.inj h)
    obtain ⟨blanks, ht, hb⟩ := dropBlanks_eq text
    obtain ⟨hp, hall, hne, hl⟩ := takeDigits_eq_ok (by decide) hd
    obtain ⟨rfl, hr⟩ := note_eq_ok hn
    have hl' : digits.length = 1 ∨ digits.length = 2 := by
      have := List.length_pos_iff.2 hne
      omega
    refine ⟨blanks ++ digits, ?_, .number (.intro hb hall hl' hr) _⟩
    rw [ht, hp, List.append_assoc]
  | fraction =>
    simp only [take] at h
    split at h
    · obtain ⟨⟨digits, rest'⟩, hd, h⟩ := exists_of_bind_eq_ok h
      obtain ⟨rfl, rfl⟩ := Prod.mk.inj (Except.ok.inj h)
      obtain ⟨rfl, hall, hne⟩ := takeDigits_length_eq_ok hd
      exact ⟨_, rfl, .fraction (.digits hall hne) _ _⟩
    · obtain ⟨rfl, rfl⟩ := Prod.mk.inj (Except.ok.inj h)
      exact ⟨[], rfl, .fraction .none reading reading.nanos⟩
  | exactOffset =>
    simp only [take] at h
    split at h
    · obtain ⟨rfl, rfl⟩ := Prod.mk.inj (Except.ok.inj h)
      exact ⟨['Z'], rfl, .utc (.inl rfl) _⟩
    · obtain ⟨rfl, rfl⟩ := Prod.mk.inj (Except.ok.inj h)
      exact ⟨['z'], rfl, .utc (.inr rfl) _⟩
    · have hbetween : ∀ {text rest : List Char}, takeMark ':' text = .ok rest →
          ∃ gap, text = gap ++ rest ∧ gap = [':'] :=
        fun hm => ⟨[':'], takeMark_eq_ok hm, rfl⟩
      obtain ⟨piece, rfl, hp, ahead, rfl⟩ := takeOffset_eq_ok hbetween h
      exact ⟨piece, rfl, .exactOffset hp _ _⟩
  | offset =>
    obtain ⟨blanks, ht, hb⟩ := dropBlanks_eq text
    have hbetween : ∀ {text rest : List Char},
        (Except.ok (text.dropWhile fun c => c == ':' || Text.isBlank c) :
          Except Problem (List Char)) = .ok rest →
        ∃ gap, text = gap ++ rest ∧ ∀ c ∈ gap, c = ':' ∨ Text.isBlank c = true := by
      intro text rest hr
      obtain ⟨gap, hg, hall⟩ := eq_append_dropWhile (fun c => c == ':' || Text.isBlank c) text
      rw [Except.ok.inj hr] at hg
      exact ⟨gap, hg, fun c hc => by simpa using hall c hc⟩
    obtain ⟨piece, hp, hspells, ahead, rfl⟩ := takeOffset_eq_ok hbetween h
    refine ⟨blanks ++ piece, ?_, .offset hb hspells _ _⟩
    rw [ht, hp, List.append_assoc]

end Item

/-! ## What layouts take -/

/-- What the items of a layout take one after another. -/
inductive Layout.Takes : Layout → List Char → Reading → Reading → Prop where
  | nil (reading : Reading) : Takes [] [] reading reading
  | cons {item : Item} {items : Layout} {piece text : List Char} {reading noted last : Reading}
      (h : item.Takes piece reading noted) (hs : Takes items text noted last) :
      Takes (item :: items) (piece ++ text) reading last

namespace Layout

theorem takes_of_take {layout : Layout} {reading noted : Reading} {text rest : List Char}
    (h : layout.take reading text = .ok (noted, rest)) :
    ∃ piece, text = piece ++ rest ∧ layout.Takes piece reading noted := by
  induction layout generalizing reading text with
  | nil =>
    obtain ⟨rfl, rfl⟩ := Prod.mk.inj (Except.ok.inj h)
    exact ⟨[], rfl, .nil _⟩
  | cons item items ih =>
    rw [take, List.foldlM_cons] at h
    obtain ⟨⟨next, left⟩, hi, hs⟩ := exists_of_bind_eq_ok h
    obtain ⟨piece, rfl, hp⟩ := Item.takes_of_take hi
    obtain ⟨others, rfl, ho⟩ := ih hs
    exact ⟨piece ++ others, (List.append_assoc ..).symm, .cons hp ho⟩

theorem takes_nil {text : List Char} {reading last : Reading}
    (h : Layout.Takes [] text reading last) : text = [] ∧ last = reading := by
  cases h
  exact ⟨rfl, rfl⟩

theorem takes_cons {item : Item} {items : Layout} {text : List Char} {reading last : Reading}
    (h : Layout.Takes (item :: items) text reading last) :
    ∃ piece rest noted, text = piece ++ rest ∧ item.Takes piece reading noted ∧
      items.Takes rest noted last := by
  cases h with
  | cons hi hs => exact ⟨_, _, _, rfl, hi, hs⟩

theorem takes_singleton {item : Item} {text : List Char} {reading last : Reading}
    (h : Layout.Takes [item] text reading last) : item.Takes text reading last := by
  obtain ⟨piece, rest, noted, rfl, hi, hs⟩ := takes_cons h
  obtain ⟨rfl, rfl⟩ := takes_nil hs
  rw [List.append_nil]
  exact hi

theorem takes_mark {c : Char} {items : Layout} {text : List Char} {reading last : Reading}
    (h : Layout.Takes (.mark c :: items) text reading last) :
    ∃ rest, text = c :: rest ∧ items.Takes rest reading last := by
  obtain ⟨piece, rest, noted, rfl, hc, hs⟩ := takes_cons h
  cases hc
  exact ⟨rest, rfl, hs⟩

theorem takes_append {layout items : Layout} {text : List Char} {reading last : Reading}
    (h : Layout.Takes (layout ++ items) text reading last) :
    ∃ front rest noted, text = front ++ rest ∧ layout.Takes front reading noted ∧
      items.Takes rest noted last := by
  induction layout generalizing text reading with
  | nil => exact ⟨[], text, reading, rfl, .nil _, h⟩
  | cons item others ih =>
    obtain ⟨piece, left, next, rfl, hi, hs⟩ := takes_cons h
    obtain ⟨front, rest, noted, rfl, hf, hr⟩ := ih hs
    exact ⟨piece ++ front, rest, noted, (List.append_assoc ..).symm, .cons hi hf, hr⟩

/-- A text is read if the items take all of it and note an instant. -/
theorem read_eq_ok_iff {layout : Layout} {text : List Char} {instant : Instant} :
    layout.read text = .ok instant ↔
      ∃ reading, layout.take {} text = .ok (reading, []) ∧ reading.instant? = some instant := by
  constructor
  · intro h
    obtain ⟨⟨reading, rest⟩, ht, h⟩ := exists_of_bind_eq_ok h
    dsimp only at h
    cases rest with
    | cons c rest => cases h
    | nil =>
      rw [if_pos (List.isEmpty_nil)] at h
      split at h
      · next found hf =>
        obtain rfl := Except.ok.inj h
        exact ⟨reading, ht, hf⟩
      · cases h
  · rintro ⟨reading, ht, hi⟩
    rw [read, ht, ok_bind]
    simp [hi, pure, Except.pure]

/-- **A layout that reads a text divides it among its items.** -/
theorem takes_of_read {layout : Layout} {text : List Char} {instant : Instant}
    (h : layout.read text = .ok instant) :
    ∃ reading, layout.Takes text {} reading ∧ reading.instant? = some instant := by
  obtain ⟨reading, ht, hi⟩ := read_eq_ok_iff.1 h
  obtain ⟨piece, hp, ht⟩ := takes_of_take ht
  obtain rfl : text = piece := hp.trans (List.append_nil piece)
  exact ⟨reading, ht, hi⟩

end Layout

end SchemaScalar.Calendar
