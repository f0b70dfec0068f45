import SchemaScalar.Proofs.Calendar.ReadStamp
import SchemaScalar.Proofs.Calendar.Spelling

/-!
# Manners of writing dates

A manner says how the parts of a date with its time of day may be written. In the documented one
(`Manner.documented`) fields have two digits, one character stands between date and time, and an
offset follows the seconds at once.

What is read need not be written like that. `Iso8601.writes_of_parse` says how it is: either in the
manner of interchange, which is the documented one with seconds and an offset that has a colon, or
in a loose one. There a field may have one digit and white space before it, between date and time
stands a `T` or any white space, even none, and in an offset there may be white space and colons.
-/

namespace SchemaScalar.Calendar

open Text (decimalValue)

/-! ## Manners -/

/-- How the parts of a date with its time of day may be written. -/
structure Manner where
  /-- The number of a field. -/
  field : Part → List Char → Nat → Prop
  /-- What separates date and time. -/
  gap : List Char → Prop
  /-- What follows the minutes. -/
  ending : List Char → Prop

/-- Seconds, the fraction of a second, and what follows them. -/
inductive SpellsSeconds (field : Part → List Char → Nat → Prop) (zone : List Char → Prop) :
    List Char → Prop where
  | intro {second fraction tail : List Char} {n : Nat} (hs : field .second second n)
      (hf : SpellsFraction fraction) (hz : zone tail) :
      SpellsSeconds field zone (':' :: (second ++ (fraction ++ tail)))

namespace Manner

/-- A date: a year of four digits, a month and a day. -/
inductive WritesDate (manner : Manner) (date : Date) : List Char → Prop where
  | intro {year month day : List Char} (hd : AreDigits year) (hl : year.length = 4)
      (hy : (decimalValue year : Int) = date.year) (hm : manner.field .month month date.month)
      (hday : manner.field .day day date.day) :
      WritesDate manner date (year ++ '-' :: (month ++ '-' :: day))

/-- A time of day. -/
inductive WritesClock (manner : Manner) : List Char → Prop where
  | intro {hour minute ending : List Char} {h m : Nat} (hh : manner.field .hour hour h)
      (hm : manner.field .minute minute m) (he : manner.ending ending) :
      WritesClock manner (hour ++ ':' :: (minute ++ ending))

/-- A date with or without a time of day. -/
inductive Writes (manner : Manner) (date : Date) : List Char → Prop where
  | date {text : List Char} (hd : manner.WritesDate date text) : Writes manner date text
  | dateTime {text gap clock : List Char} (hd : manner.WritesDate date text) (hg : manner.gap gap)
      (hc : manner.WritesClock clock) : Writes manner date (text ++ (gap ++ clock))

/-- `T` of either case, or one space. -/
def IsMark (gap : List Char) : Prop := gap = ['T'] ∨ gap = ['t'] ∨ gap = [' ']

/-- `Z` of either case. -/
def IsUtc (zone : List Char) : Prop := zone = ['Z'] ∨ zone = ['z']

def documented : Manner where
  field := SpellsExactly
  gap := IsMark
  ending text := text = [] ∨ SpellsSeconds SpellsExactly
    (fun zone => zone = [] ∨ IsUtc zone ∨
      SpellsOffset (fun between => between = [] ∨ between = [':']) zone) text

/-- The manner of interchange: seconds and an offset are never left out. -/
def interchange : Manner where
  field := SpellsExactly
  gap := IsMark
  ending := SpellsSeconds SpellsExactly fun zone => IsUtc zone ∨ SpellsOffset (· = [':']) zone

def loose : Manner where
  field := SpellsLoosely
  gap text := text = ['T'] ∨ AreBlanks text
  ending text := text = [] ∨ SpellsSeconds SpellsLoosely
    (fun zone => zone = [] ∨ ∃ blanks offset, zone = blanks ++ offset ∧ AreBlanks blanks ∧
      SpellsOffset (∀ c ∈ ·, c = ':' ∨ Text.isBlank c = true) offset) text

/-- What is written in the documented manner has at least ten characters. -/
theorem length_of_documented {date : Date} {text : List Char} (h : documented.Writes date text) :
    10 ≤ text.length := by
  have hdate : ∀ {text : List Char}, documented.WritesDate date text → text.length = 10 := by
    rintro _ ⟨-, hl, -, hm, hd⟩
    have := hm.length_eq
    have := hd.length_eq
    simp only [List.length_append, List.length_cons]
    omega
  cases h with
  | date hd => exact Nat.le_of_eq (hdate hd).symm
  | dateTime hd _ _ =>
    rw [List.length_append, hdate hd]
    exact Nat.le_add_right _ _

/-- What is written in a manner is written in every manner that allows as much. -/
theorem Writes.mono {manner other : Manner}
    (hf : ∀ {part piece n}, manner.field part piece n → other.field part piece n)
    (hg : ∀ {gap}, manner.gap gap → other.gap gap)
    (he : ∀ {ending}, manner.ending ending → other.ending ending) {date : Date} {text : List Char}
    (h : manner.Writes date text) : other.Writes date text := by
  have hdate : ∀ {text}, manner.WritesDate date text → other.WritesDate date text := by
    rintro _ ⟨hd, hl, hy, hm, hday⟩
    exact ⟨hd, hl, hy, hf hm, hf hday⟩
  cases h with
  | date hd => exact .date (hdate hd)
  | dateTime hd hgap hc =>
    obtain ⟨hh, hm, hending⟩ := hc
    exact .dateTime (hdate hd) (hg hgap) ⟨hf hh, hf hm, he hending⟩

/-- Texts of interchange are documented. -/
theorem documented_of_interchange {date : Date} {text : List Char}
    (h : interchange.Writes date text) : documented.Writes date text := by
  have he : ∀ {ending}, interchange.ending ending → documented.ending ending := by
    rintro _ ⟨hs, hf, hz⟩
    refine .inr (.intro hs hf ?_)
    rcases hz with hutc | ⟨hsign, hh, hhl, hgap, hm, hml, hmv⟩
    · exact .inr (.inl hutc)
    · exact .inr (.inr (.intro hsign hh hhl (.inr hgap) hm hml hmv))
  refine h.mono ?_ ?_ he
  · exact fun hf => hf
  · exact fun hg => hg

/-- Whether an item for a field takes what is written in a manner, and notes its number. -/
def Reads (manner : Manner) (field : Part → Item) : Prop :=
  ∀ {part : Part} {piece : List Char} {reading noted : Reading},
    (field part).Takes piece reading noted →
      ∃ n, manner.field part piece n ∧ noted = part.put reading n

theorem reads_interchange : interchange.Reads .exact := by
  intro part piece reading noted h
  cases h with
  | exact h => exact ⟨_, h, rfl⟩

theorem reads_loose : loose.Reads .number := by
  intro part piece reading noted h
  cases h with
  | number h => exact ⟨_, h, rfl⟩

end Manner

/-! ## Years -/

/-- A text that starts with a year, written as `piece` after `blanks`, and a hyphen. -/
structure YearAt (text blanks piece : List Char) (year : Int) : Prop where
  areBlanks : AreBlanks blanks
  spells : SpellsYear piece year
  front : ∃ rest, text = blanks ++ piece ++ '-' :: rest

/-- Four digits and nothing before them. -/
def IsFourDigits (blanks piece : List Char) : Prop :=
  blanks = [] ∧ AreDigits piece ∧ piece.length = 4

theorem SpellsYear.eq_decimalValue {piece : List Char} {year : Int} (h : SpellsYear piece year)
    (hd : AreDigits piece) : year = decimalValue piece := by
  cases h with
  | plain => rfl
  | plus => exact absurd (hd _ List.mem_cons_self) (by decide)
  | minus => exact absurd (hd _ List.mem_cons_self) (by decide)

/-- Both kinds of year take white space, possibly none, and a year. -/
theorem Item.exists_of_takes_year {item : Item} (hi : item = .exactYear ∨ item = .year)
    {text : List Char} {reading noted : Reading} (h : item.Takes text reading noted) :
    ∃ blanks piece year, text = blanks ++ piece ∧ AreBlanks blanks ∧ SpellsYear piece year ∧
      noted = { reading with year := year } := by
  rcases hi with rfl | rfl
  · cases h with
    | exactYear hd hl =>
      have hne : text ≠ [] := by
        rintro rfl
        cases hl
      exact ⟨[], text, _, rfl, nofun, .plain hd hne (Nat.le_of_eq hl), rfl⟩
  · cases h with
    | year hb hy => exact ⟨_, _, _, rfl, hb, hy, rfl⟩

namespace Iso8601

/-- **Of the years that are read, those in exactly four digits are told from the others**, which
have a sign, white space before them, or fewer digits. -/
theorem hasFourDigitYear_iff {text blanks piece : List Char} {year : Int}
    (h : YearAt text blanks piece year) :
    hasFourDigitYear text = true ↔ IsFourDigits blanks piece := by
  obtain ⟨hb, hy, rest, rfl⟩ := h
  constructor
  · intro h
    cases blanks with
    | cons c blanks =>
      have hc : c.isDigit = false := by
        rw [← Bool.not_eq_true]
        intro hd
        have hblank := hb c List.mem_cons_self
        rw [isBlank_of_isDigit hd] at hblank
        cases hblank
      rw [List.cons_append, List.cons_append, hasFourDigitYear_cons hc] at h
      cases h
    | nil =>
      cases hy with
      | plus => cases (hasFourDigitYear_cons rfl _).symm.trans h
      | minus => cases (hasFourDigitYear_cons rfl _).symm.trans h
      | plain hd hne hl =>
        have hlen : ¬ piece.length < 4 := by
          -- with fewer digits the hyphen is one of the first four characters
          intro hlt
          have hfront : piece ++ ['-'] <+: (piece ++ '-' :: rest).take 4 := by
            refine List.prefix_take_iff.2 ⟨⟨rest, ?_⟩, ?_⟩
            · rw [List.append_assoc, List.singleton_append]
            · rw [List.length_append]
              exact hlt
          have hhyphen := hfront.subset (List.mem_append_right _ List.mem_cons_self)
          have hall := (Bool.and_eq_true_iff.1 h).1
          exact absurd (List.all_eq_true.1 hall _ hhyphen) (by decide)
        exact ⟨rfl, hd, by omega⟩
  · rintro ⟨rfl, hd, hl⟩
    exact hasFourDigitYear_append hl hd

/-! ## Dates -/

/-- The fields of a date, strictly or leniently read. -/
def dateBy (yearItem : Item) (field : Part → Item) : Layout :=
  [yearItem, .mark '-', field .month, .mark '-', field .day]

/-- The items of a date take a year, a month and a day. -/
theorem takes_date {manner : Manner} {yearItem : Item} {field : Part → Item}
    (hi : yearItem = .exactYear ∨ yearItem = .year) (hf : manner.Reads field) {text : List Char}
    {reading noted : Reading} (h : (dateBy yearItem field).Takes text reading noted) :
    ∃ blanks piece month day year m d, AreBlanks blanks ∧ SpellsYear piece year ∧
      manner.field .month month m ∧ manner.field .day day d ∧
      text = blanks ++ piece ++ '-' :: (month ++ '-' :: day) ∧
      noted = { reading with year := year, month := m, day := d } := by
  obtain ⟨_, _, _, rfl, hyear, h₁⟩ := Layout.takes_cons h
  obtain ⟨_, rfl, h₂⟩ := Layout.takes_mark h₁
  obtain ⟨month, _, _, rfl, hmonth, h₃⟩ := Layout.takes_cons h₂
  obtain ⟨day, rfl, h₄⟩ := Layout.takes_mark h₃
  obtain ⟨blanks, piece, year, rfl, hb, hy, rfl⟩ := Item.exists_of_takes_year hi hyear
  obtain ⟨m, hm, rfl⟩ := hf hmonth
  obtain ⟨d, hd, rfl⟩ := hf (Layout.takes_singleton h₄)
  exact ⟨blanks, piece, month, day, year, m, d, hb, hy, hm, hd, rfl, rfl⟩

end Iso8601

/-- Whether an item states a part of the date. -/
def Item.statesDate : Item → Bool
  | exactYear => true
  | year => true
  | exact part => part == .month || part == .day
  | number part => part == .month || part == .day
  | _ => false

def Reading.onDate (reading : Reading) : Int × Nat × Nat :=
  (reading.year, reading.month, reading.day)

theorem Part.onDate_put {part : Part} (h : (part == .month || part == .day) = false)
    (reading : Reading) (n : Nat) : (part.put reading n).onDate = reading.onDate := by
  cases part <;> first | rfl | cases h

theorem Item.onDate_of_takes {item : Item} (hi : item.statesDate = false) {piece : List Char}
    {reading noted : Reading} (h : item.Takes piece reading noted) :
    noted.onDate = reading.onDate := by
  cases h with
  | exactYear => cases hi
  | year => cases hi
  | exact => exact Part.onDate_put hi _ _
  | number => exact Part.onDate_put hi _ _
  | _ => rfl

/-- What follows a date leaves it as it was noted. -/
theorem Layout.onDate_of_takes {items : Layout} (hi : ∀ item ∈ items, item.statesDate = false)
    {text : List Char} {reading last : Reading} (h : items.Takes text reading last) :
    last.onDate = reading.onDate := by
  induction h with
  | nil => rfl
  | cons h _ ih =>
    rw [ih fun item hmem => hi item (List.mem_cons_of_mem _ hmem),
      Item.onDate_of_takes (hi _ List.mem_cons_self) h]

/-- The instant of a reading is on a date of the calendar. -/
theorem Reading.exists_date {reading : Reading} {instant : Instant}
    (h : reading.instant? = some instant) :
    ∃ date : Date, reading.onDate = (date.year, date.month, date.day) := by
  obtain ⟨date, hd, -⟩ := Option.bind_eq_some_iff.1 h
  unfold Date.ofFields? at hd
  split at hd
  · next hday => exact ⟨⟨reading.year, reading.month, reading.day, hday.1, hday.2⟩, rfl⟩
  · cases hd

namespace Iso8601

/-! ## Whole texts -/

section Parts

variable {manner : Manner} {field : Part → Item} (hf : manner.Reads field)
include hf

theorem spellsSeconds_of_takes {zone : List Char → Prop} {items : Layout}
    (hz : ∀ {text : List Char} {reading noted : Reading},
      items.Takes text reading noted → zone text)
    {text : List Char} {reading noted : Reading}
    (h : (secondsBy field ++ items).Takes text reading noted) :
    SpellsSeconds manner.field zone text := by
  obtain ⟨_, rfl, h₁⟩ := Layout.takes_mark h
  obtain ⟨second, _, _, rfl, hsecond, h₂⟩ := Layout.takes_cons h₁
  obtain ⟨fraction, _, _, rfl, hfraction, h₃⟩ := Layout.takes_cons h₂
  obtain ⟨n, hs, -⟩ := hf hsecond
  cases hfraction with
  | fraction hfraction => exact .intro hs hfraction (hz h₃)

theorem writesClock_of_takes {items : Layout}
    (he : ∀ {text : List Char} {reading noted : Reading},
      items.Takes text reading noted → manner.ending text)
    {text : List Char} {reading noted : Reading}
    (h : (minutesBy field ++ items).Takes text reading noted) : manner.WritesClock text := by
  obtain ⟨hour, _, _, rfl, hhour, h₁⟩ := Layout.takes_cons h
  obtain ⟨_, rfl, h₂⟩ := Layout.takes_mark h₁
  obtain ⟨minute, _, _, rfl, hminute, h₃⟩ := Layout.takes_cons h₂
  obtain ⟨_, hh, -⟩ := hf hhour
  obtain ⟨_, hm, -⟩ := hf hminute
  exact .intro hh hm (he h₃)

/-- The date at the front of a text that is read. -/
theorem writesDate_of_takes {yearItem : Item} (hy : yearItem = .exactYear ∨ yearItem = .year)
    {text rest : List Char} (h4 : hasFourDigitYear (text ++ rest) = true) {noted : Reading}
    (h : (dateBy yearItem field).Takes text {} noted) {date : Date}
    (hd : noted.onDate = (date.year, date.month, date.day)) : manner.WritesDate date text := by
  obtain ⟨blanks, piece, month, day, year, m, d, hb, hspells, hm, hday, rfl, rfl⟩ :=
    takes_date hy hf h
  have hat : YearAt (blanks ++ piece ++ '-' :: (month ++ '-' :: day) ++ rest) blanks piece year :=
    ⟨hb, hspells, month ++ '-' :: day ++ rest, List.append_assoc ..⟩
  obtain ⟨rfl, hdigits, hl⟩ := (hasFourDigitYear_iff hat).1 h4
  simp only [Reading.onDate, Prod.mk.injEq] at hd
  obtain ⟨hyear, rfl, rfl⟩ := hd
  exact .intro hdigits hl ((hspells.eq_decimalValue hdigits).symm.trans hyear) hm hday

/-- A text that is read is written in the manner of the items that read it. -/
theorem writes_of_takes {yearItem : Item} (hy : yearItem = .exactYear ∨ yearItem = .year)
    {gapItem : Item} (hg : ∀ {text : List Char} {reading noted : Reading},
      gapItem.Takes text reading noted → manner.gap text)
    {items : Layout} (hc : ∀ {text : List Char} {reading noted : Reading},
      items.Takes text reading noted → manner.WritesClock text)
    (hkeep : ∀ item ∈ gapItem :: items, item.statesDate = false)
    {text : List Char} (h4 : hasFourDigitYear text = true) {last : Reading}
    (h : (dateBy yearItem field ++ gapItem :: items).Takes text {} last) {instant : Instant}
    (hi : last.instant? = some instant) : ∃ date, manner.Writes date text := by
  obtain ⟨front, rest, noted, rfl, hdate, h⟩ := Layout.takes_append h
  obtain ⟨date, hd⟩ := Reading.exists_date hi
  rw [Layout.onDate_of_takes hkeep h] at hd
  obtain ⟨gap, clock, _, rfl, hgap, h⟩ := Layout.takes_cons h
  exact ⟨date, .dateTime (writesDate_of_takes hf hy h4 hdate hd) (hg hgap) (hc h)⟩

end Parts

theorem gap_interchange {text : List Char} {reading noted : Reading}
    (h : Item.separator.Takes text reading noted) : Manner.interchange.gap text := by
  cases h with
  | separator hc =>
    rcases hc with rfl | rfl | rfl
    · exact .inl rfl
    · exact .inr (.inl rfl)
    · exact .inr (.inr rfl)

theorem gap_loose (gap : Gap) {text : List Char} {reading noted : Reading}
    (h : (gapItem gap).Takes text reading noted) : Manner.loose.gap text := by
  cases gap with
  | letter =>
    cases h
    exact .inl rfl
  | space =>
    cases h with
    | blanks hb => exact .inr hb

theorem ending_interchange {text : List Char} {reading noted : Reading}
    (h : (secondsBy .exact ++ [Item.exactOffset]).Takes text reading noted) :
    Manner.interchange.ending text := by
  refine spellsSeconds_of_takes Manner.reads_interchange ?_ h
  intro text reading noted h
  cases Layout.takes_singleton h with
  | utc hc =>
    rcases hc with rfl | rfl
    · exact .inl (.inl rfl)
    · exact .inl (.inr rfl)
  | exactOffset hz => exact .inr hz

/-- What follows the minutes in lenient layouts: seconds with or without an offset, or nothing. -/
def lenientEndings : List Layout := [secondsBy .number ++ [.offset], secondsBy .number ++ [], []]

theorem ending_loose {items : Layout} (hi : items ∈ lenientEndings) {text : List Char}
    {reading noted : Reading} (h : items.Takes text reading noted) :
    Manner.loose.ending text := by
  simp only [lenientEndings, List.mem_cons, List.not_mem_nil, or_false] at hi
  rcases hi with rfl | rfl | rfl
  · refine .inr (spellsSeconds_of_takes Manner.reads_loose ?_ h)
    intro text reading noted h
    cases Layout.takes_singleton h with
    | offset hb hz => exact .inr ⟨_, _, rfl, hb, hz⟩
  · refine .inr (spellsSeconds_of_takes Manner.reads_loose ?_ h)
    intro text reading noted h
    exact .inl (Layout.takes_nil h).1
  · exact .inl (Layout.takes_nil h).1

/-- All layouts in the order in which they are tried, that of a bare date included. -/
def layouts : List Layout := timeLayouts ++ [dateItems]

/-- A layout is that of interchange, that of a bare date, or a lenient one with a time of day. -/
theorem layouts_cases {layout : Layout} (h : layout ∈ layouts) :
    layout = dateBy .exactYear .exact ++
        .separator :: (minutesBy .exact ++ (secondsBy .exact ++ [.exactOffset])) ∨
      layout = dateBy .year .number ∨
      ∃ gap, ∃ items ∈ lenientEndings,
        layout = dateBy .year .number ++ gapItem gap :: (minutesBy .number ++ items) := by
  simp only [layouts, timeLayouts_eq, lenientPair, List.mem_append, List.mem_cons,
    List.not_mem_nil, or_false] at h
  rcases h with (rfl | (rfl | rfl) | (rfl | rfl) | rfl | rfl) | rfl
  · exact .inl rfl
  · exact .inr (.inr ⟨.letter, _, .head _, rfl⟩)
  · exact .inr (.inr ⟨.space, _, .head _, rfl⟩)
  · exact .inr (.inr ⟨.letter, _, .tail _ (.head _), rfl⟩)
  · exact .inr (.inr ⟨.space, _, .tail _ (.head _), rfl⟩)
  · exact .inr (.inr ⟨.letter, _, .tail _ (.tail _ (.head _)), rfl⟩)
  · exact .inr (.inr ⟨.space, _, .tail _ (.tail _ (.head _)), rfl⟩)
  · exact .inr (.inl rfl)

/-- What follows the date in a lenient layout. -/
theorem statesDate_lenient (gap : Gap) {items : Layout} (hi : items ∈ lenientEndings) :
    ∀ item ∈ gapItem gap :: (minutesBy .number ++ items), item.statesDate = false := by
  simp only [lenientEndings, List.mem_cons, List.not_mem_nil, or_false] at hi
  rcases hi with rfl | rfl | rfl <;> cases gap <;> decide

theorem exists_layout_of_instant {text : List Char} {instant : Instant}
    (h : Iso8601.instant text = .ok instant) :
    ∃ layout ∈ layouts, layout.read text = .ok instant := by
  unfold Iso8601.instant at h
  split at h
  · next found hf =>
    obtain rfl := Except.ok.inj h
    obtain ⟨layout, hmem, hread⟩ := List.exists_of_findSome?_eq_some hf
    refine ⟨layout, List.mem_append_left _ hmem, ?_⟩
    cases hr : layout.read text with
    | ok i =>
      rw [hr] at hread
      exact congrArg Except.ok (Option.some.inj hread)
    | error problem =>
      rw [hr] at hread
      cases hread
  · exact ⟨dateItems, by simp [layouts], h⟩

/-- **What is read is written in one of two manners**, that of interchange or the loose one, and
tells a date of the calendar in a year of four digits. -/
theorem writes_of_parse {text : List Char} {instant : Instant} (h : parse text = .ok instant) :
    ∃ date, Manner.interchange.Writes date text ∨ Manner.loose.Writes date text := by
  obtain ⟨hinstant, h4, -⟩ := parse_eq_ok_iff.1 h
  obtain ⟨layout, hmem, hread⟩ := exists_layout_of_instant hinstant
  obtain ⟨reading, ht, hi⟩ := Layout.takes_of_read hread
  rcases layouts_cases hmem with rfl | rfl | ⟨gap, items, hitems, rfl⟩
  · obtain ⟨date, hw⟩ := writes_of_takes Manner.reads_interchange (.inl rfl) gap_interchange
      (writesClock_of_takes Manner.reads_interchange ending_interchange) (by decide) h4 ht hi
    exact ⟨date, .inl hw⟩
  · obtain ⟨date, hd⟩ := Reading.exists_date hi
    have h4' : hasFourDigitYear (text ++ []) = true := by rwa [List.append_nil]
    exact ⟨date, .inr (.date (writesDate_of_takes Manner.reads_loose (.inr rfl) h4' ht hd))⟩
  · obtain ⟨date, hw⟩ := writes_of_takes Manner.reads_loose (.inr rfl) (gap_loose gap)
      (writesClock_of_takes Manner.reads_loose (ending_loose hitems))
      (statesDate_lenient gap hitems) h4 ht hi
    exact ⟨date, .inr hw⟩

end Iso8601

end SchemaScalar.Calendar
