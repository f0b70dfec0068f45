import SchemaScalar.Proofs.Calendar.Stamp

/-!
# Stamps read

Every stamp is read as the instant that it means, unless the offset carries it out of the years that
instants are written in (`Iso8601.parse_stamp`).

Of the layouts that are tried, those with a time of day differ in what they take between date and
time, and in what they take of the time. `findSome?_timeLayouts` settles the former, so that four
layouts of clocks remain, and `findSome?_clockLayouts` settles these.
-/

namespace SchemaScalar.Calendar

open Text (padded padded_ne_nil isDigit_of_mem_padded)

/-! ## Layouts read in two parts -/

namespace Layout

theorem take_append {layout : Layout} {reading noted : Reading} {text rest : List Char}
    (h : layout.take reading text = .ok (noted, rest)) (items : Layout) :
    Layout.take (layout ++ items) reading text = Layout.take items noted rest := by
  unfold take at h ⊢
  rw [List.foldlM_append, h]
  rfl

/-- Reads what is left of a text after something was noted. -/
def readFrom (layout : Layout) (noted : Reading) (text : List Char) : Except Problem Instant := do
  let (reading, rest) ← layout.take noted text
  if rest.isEmpty then
    match reading.instant? with
    | some instant => return instant
    | none => .error .outOfRange
  else .error .tooLong

theorem readFrom_append {layout : Layout} {reading noted : Reading} {text rest : List Char}
    (h : layout.take reading text = .ok (noted, rest)) (items : Layout) :
    readFrom (layout ++ items) reading text = readFrom items noted rest := by
  unfold readFrom
  rw [take_append h]

theorem readFrom_cons {item : Item} {reading noted : Reading} {text rest : List Char}
    (h : item.take reading text = .ok (noted, rest)) (items : Layout) :
    readFrom (item :: items) reading text = readFrom items noted rest := by
  unfold readFrom
  rw [take_cons h]

theorem readFrom_cons_error {item : Item} {reading : Reading} {text : List Char}
    {problem : Problem} (h : item.take reading text = .error problem) (items : Layout) :
    (readFrom (item :: items) reading text).toOption = none := by
  simp only [readFrom, take, List.foldlM_cons, h]
  rfl

theorem readFrom_nil {reading : Reading} {instant : Instant}
    (h : reading.instant? = some instant) : readFrom [] reading [] = .ok instant := by
  simp only [readFrom, take_nil, bind, Except.bind, List.isEmpty_nil, if_true, h]
  rfl

end Layout

/-! ## Dates -/

namespace Iso8601

/-- Whether an item reads a field written in two digits. -/
def ReadsTwoDigits (field : Part → Item) : Prop :=
  ∀ (part : Part) {n : Nat}, part.range.1 ≤ n ∧ n ≤ part.range.2 →
    ∀ (reading : Reading) (rest : List Char),
      (field part).take reading (padded 2 n ++ rest) = .ok (part.put reading n, rest)

theorem readsTwoDigits_exact : ReadsTwoDigits .exact := Item.take_exact

theorem readsTwoDigits_number : ReadsTwoDigits .number := Item.take_number

/-- What the date of a stamp states. -/
def dateReading (date : Date) : Reading :=
  { year := date.year, month := date.month, day := date.day }

/-- The date of a stamp is read off its front, strictly or leniently. -/
theorem take_date {date : Date} (h0 : 0 ≤ date.year) (h9 : date.year ≤ 9999) {yearItem : Item}
    (hyear : ∀ {n : Nat}, n < 10000 → ∀ (reading : Reading) (rest : List Char),
      yearItem.take reading (padded 4 n ++ rest) = .ok ({ reading with year := n }, rest))
    {field : Part → Item} (hfield : ReadsTwoDigits field) (rest : List Char) :
    Layout.take [yearItem, .mark '-', field .month, .mark '-', field .day] {} (date.text ++ rest) =
      .ok (dateReading date, rest) := by
  have hd : 1 ≤ date.day ∧ date.day ≤ 31 := ⟨date.day_pos, date.day_le_31⟩
  have hy : ((date.year.toNat : Nat) : Int) = date.year := Int.toNat_of_nonneg h0
  unfold Date.text
  simp only [yearText_plain h0 h9, List.append_assoc, List.cons_append]
  rw [Layout.take_cons (hyear (by omega) _ _),
    Layout.take_cons (Item.take_mark _ _ _),
    Layout.take_cons (hfield .month date.month_range _ _),
    Layout.take_cons (Item.take_mark _ _ _),
    Layout.take_cons (hfield .day hd _ _), Layout.take_nil]
  simp only [Part.put, dateReading, hy]

/-! ## What separates date and time -/

/-- The item of lenient layouts that takes what separates date and time. -/
def gapItem : Gap → Item
  | .letter => .mark 'T'
  | .space => .blanks

theorem take_gapItem (gap : Gap) {clock : List Char}
    (hc : ∀ c ∈ clock.head?, c.isDigit = true) (reading : Reading) :
    (gapItem gap).take reading (gap.char :: clock) = .ok (reading, clock) := by
  cases gap with
  | letter => exact Item.take_mark _ _ _
  | space =>
    have hb : dropBlanks (' ' :: clock) = dropBlanks clock := rfl
    have hd : dropBlanks clock = clock :=
      dropBlanks_of_head fun c h => isBlank_of_isDigit (hc c h)
    simp only [gapItem, Gap.char, Item.take, hb, hd]

/-- With the item for the other gap the reading stops there, or at the hour. -/
theorem readFrom_otherGap {gap other : Gap} (h : other ≠ gap) (items : Layout) (reading : Reading)
    (clock : List Char) :
    (Layout.readFrom (gapItem other :: .number .hour :: items) reading
      (gap.char :: clock)).toOption = none := by
  cases gap <;> cases other
  · exact absurd rfl h
  · have hb : Item.blanks.take reading ('T' :: clock) = .ok (reading, 'T' :: clock) := rfl
    rw [gapItem, Gap.char, Layout.readFrom_cons hb]
    exact Layout.readFrom_cons_error rfl _
  · exact Layout.readFrom_cons_error rfl _
  · exact absurd rfl h

/-- So it does when nothing follows the date. -/
theorem readFrom_noGap (gap : Gap) (items : Layout) (reading : Reading) :
    (Layout.readFrom (gapItem gap :: .number .hour :: items) reading []).toOption = none := by
  cases gap with
  | letter => exact Layout.readFrom_cons_error rfl _
  | space =>
    have hb : Item.blanks.take reading [] = .ok (reading, []) := rfl
    rw [gapItem, Layout.readFrom_cons hb]
    exact Layout.readFrom_cons_error rfl _

/-! ## The layouts with a time of day -/

/-- Hours and minutes, strictly or leniently read. -/
def minutesBy (field : Part → Item) : Layout := [field .hour, .mark ':', field .minute]

/-- What follows them down to the fraction of a second. -/
def secondsBy (field : Part → Item) : Layout := [.mark ':', field .second, .fraction]

/-- The layouts of a clock: the strict one with an offset, and the lenient ones. -/
def clockLayouts : List Layout :=
  [minutesBy .exact ++ (secondsBy .exact ++ [.exactOffset]),
   minutesBy .number ++ (secondsBy .number ++ [.offset]),
   minutesBy .number ++ (secondsBy .number ++ []),
   minutesBy .number ++ []]

/-- The lenient layouts of a date and a clock, one for each gap. -/
def lenientPair (clock : Layout) : List Layout :=
  [dateItems ++ gapItem .letter :: clock, dateItems ++ gapItem .space :: clock]

theorem timeLayouts_eq :
    timeLayouts = [interchange] ++
      (lenientPair (minutesBy .number ++ (secondsBy .number ++ [.offset])) ++
        (lenientPair (minutesBy .number ++ (secondsBy .number ++ [])) ++
          lenientPair (minutesBy .number ++ []))) := rfl

section Date

variable {date : Date} (h0 : 0 ≤ date.year) (h9 : date.year ≤ 9999)
include h0 h9

theorem read_interchange (rest : List Char) :
    interchange.read (date.text ++ rest) =
      Layout.readFrom (.separator :: (minutesBy .exact ++ (secondsBy .exact ++ [.exactOffset])))
        (dateReading date) rest :=
  Layout.readFrom_append (take_date h0 h9 Item.take_exactYear readsTwoDigits_exact rest) _

theorem read_dateItems (items : Layout) (rest : List Char) :
    (dateItems ++ items).read (date.text ++ rest) = items.readFrom (dateReading date) rest :=
  Layout.readFrom_append (take_date h0 h9 Item.take_year readsTwoDigits_number rest) items

/-- Of the two lenient layouts for a clock, one takes the gap. -/
theorem findSome?_lenientPair (gap : Gap) {text : List Char}
    (hc : ∀ c ∈ text.head?, c.isDigit = true) (items : Layout) :
    ((lenientPair (.number .hour :: items)).findSome? fun layout =>
        (layout.read (date.text ++ gap.char :: text)).toOption) =
      (Layout.readFrom (.number .hour :: items) (dateReading date) text).toOption := by
  simp only [lenientPair, List.findSome?_cons, List.findSome?_nil, read_dateItems h0 h9]
  cases gap with
  | letter =>
    rw [Layout.readFrom_cons (take_gapItem .letter hc _), readFrom_otherGap (by decide)]
    cases (Layout.readFrom (.number .hour :: items) (dateReading date) text).toOption <;> rfl
  | space =>
    rw [Layout.readFrom_cons (take_gapItem .space hc _), readFrom_otherGap (by decide)]
    cases (Layout.readFrom (.number .hour :: items) (dateReading date) text).toOption <;> rfl

/-- **The gap settles half of the layouts**: the first of the others that the clock fits decides. -/
theorem findSome?_timeLayouts (gap : Gap) {text : List Char}
    (hc : ∀ c ∈ text.head?, c.isDigit = true) :
    (timeLayouts.findSome? fun layout =>
        (layout.read (date.text ++ gap.char :: text)).toOption) =
      clockLayouts.findSome? fun layout => (layout.readFrom (dateReading date) text).toOption := by
  have hgap : gap.char = 'T' ∨ gap.char = 't' ∨ gap.char = ' ' := by cases gap <;> decide
  have hclock : clockLayouts = [_] ++ ([_] ++ ([_] ++ [_])) := rfl
  rw [timeLayouts_eq, hclock]
  simp only [List.findSome?_append, List.findSome?_singleton]
  rw [read_interchange h0 h9, Layout.readFrom_cons (Item.take_separator hgap _ _)]
  simp only [minutesBy, List.cons_append, findSome?_lenientPair h0 h9 gap hc]

/-- No layout with a time of day fits a bare date. -/
theorem findSome?_timeLayouts_date :
    (timeLayouts.findSome? fun layout => (layout.read (date.text ++ [])).toOption) = none := by
  have hpair : ∀ items : Layout, ((lenientPair (.number .hour :: items)).findSome? fun layout =>
      (layout.read (date.text ++ [])).toOption) = none := by
    intro items
    simp only [lenientPair, List.findSome?_cons, List.findSome?_nil, read_dateItems h0 h9,
      readFrom_noGap]
  rw [timeLayouts_eq]
  simp only [List.findSome?_append, List.findSome?_singleton]
  rw [read_interchange h0 h9, Layout.readFrom_cons_error rfl]
  simp only [minutesBy, List.cons_append, hpair, Option.or_none]

end Date

/-! ## Clocks -/

theorem take_minutes {field : Part → Item} (hfield : ReadsTwoDigits field) (time : Time)
    (reading : Reading) (rest : List Char) :
    (minutesBy field).take reading
        (padded 2 time.hour ++ ':' :: (padded 2 time.minute ++ rest)) =
      .ok ({ reading with hour := time.hour, minute := time.minute }, rest) := by
  rw [minutesBy,
    Layout.take_cons (hfield .hour ⟨Nat.zero_le _, Nat.le_of_lt_succ time.hour_lt⟩ _ _),
    Layout.take_cons (Item.take_mark _ _ _),
    Layout.take_cons (hfield .minute ⟨Nat.zero_le _, Nat.le_of_lt_succ time.minute_lt⟩ _ _)]
  rfl

/-- What follows the seconds is no part of a fraction. -/
theorem head_zone (zone : Zone) : ∀ c ∈ zone.text.head?, c.isDigit = false ∧ c ≠ '.' := by
  intro c hc
  cases zone with
  | unstated => cases hc
  | utc =>
    cases hc
    decide
  | offset o =>
    cases hc
    cases o.isNegative <;> decide

theorem take_seconds {field : Part → Item} (hfield : ReadsTwoDigits field) (seconds : Seconds)
    {reading : Reading} (h0 : reading.nanos = 0) :
    (secondsBy field).take reading seconds.text =
      .ok ({ reading with second := seconds.second, nanos := nanosOf seconds.fraction },
        seconds.zone.text) := by
  have hz := head_zone seconds.zone
  rw [Seconds.text, secondsBy, Layout.take_cons (Item.take_mark _ _ _),
    Layout.take_cons (hfield .second ⟨Nat.zero_le _, seconds.second_le⟩ _ _)]
  by_cases hf : seconds.fraction = []
  · have hdot : seconds.zone.text.head? ≠ some '.' := fun h => (hz '.' h).2 rfl
    rw [if_pos hf, List.nil_append, Layout.take_cons (Item.take_fraction_none hdot _), hf]
    have hn : nanosOf [] = reading.nanos := h0.symm
    rw [hn]
    rfl
  · rw [if_neg hf, List.cons_append, Layout.take_cons
      (Item.take_fraction_digits seconds.isDigit_of_mem hf (fun c hc => (hz c hc).1) _)]
    rfl

theorem minutes_cons (offset : Offset) :
    ∃ c rest, padded 2 offset.minutes = c :: rest ∧ c.isDigit = true ∧ c ≠ ':' := by
  obtain ⟨c, rest, hp⟩ := List.exists_cons_of_ne_nil (padded_ne_nil 2 offset.minutes)
  have hd : c.isDigit = true := isDigit_of_mem_padded (hp ▸ List.mem_cons_self)
  refine ⟨c, rest, hp, hd, ?_⟩
  rintro rfl
  cases hd

theorem takeOffset_text {between : List Char → Except Problem (List Char)} (offset : Offset)
    (hb : between ((if offset.hasColon then [':'] else []) ++ padded 2 offset.minutes) =
      .ok (padded 2 offset.minutes)) (reading : Reading) :
    takeOffset between reading offset.text = .ok ({ reading with offset := offset.ahead }, []) := by
  have h := Item.takeOffset_append offset.isNegative offset.hours_lt_pow offset.minutes_lt
    (by rw [List.append_nil]; exact hb) reading
  rw [List.append_nil] at h
  exact h

/-- The strict layout wants a colon in an offset. -/
theorem take_exactOffset_colon {offset : Offset} (h : offset.hasColon = true) (reading : Reading) :
    Item.exactOffset.take reading offset.text =
      .ok ({ reading with offset := offset.ahead }, []) := by
  have hb : takeMark ':' ((if offset.hasColon then [':'] else []) ++ padded 2 offset.minutes) =
      .ok (padded 2 offset.minutes) := by
    rw [h]
    rfl
  rw [← takeOffset_text offset hb]
  unfold Offset.text
  cases offset.isNegative <;> rfl

theorem take_exactOffset_plain {offset : Offset} (h : offset.hasColon = false) (reading : Reading) :
    Item.exactOffset.take reading offset.text = .error .invalid := by
  obtain ⟨c, rest, hp, -, hc⟩ := minutes_cons offset
  have hh := offset.hours_lt_pow
  have hm : takeMark ':' (padded 2 offset.minutes) = .error .invalid := by
    rw [hp, takeMark, if_neg hc]
  have ho : takeOffset (takeMark ':') reading offset.text = .error .invalid := by
    unfold Offset.text takeOffset
    rw [h]
    cases offset.isNegative <;>
      simp only [takeSign, bind, Except.bind, takeExactly_padded (by decide : 0 < 2) hh, hm,
        if_true, if_false, Bool.false_eq_true, List.nil_append, Char.reduceEq, true_or]
  rw [← ho]
  unfold Offset.text
  cases offset.isNegative <;> rfl

/-- The lenient layouts want a sign only. -/
theorem take_offset (offset : Offset) (reading : Reading) :
    Item.offset.take reading offset.text = .ok ({ reading with offset := offset.ahead }, []) := by
  have hs : dropBlanks offset.text = offset.text := by
    unfold Offset.text
    cases offset.isNegative <;> rfl
  rw [Item.take, hs]
  refine takeOffset_text offset ?_ reading
  -- a colon is passed over, and the digits after it are not
  obtain ⟨c, rest, hp, hd, hc⟩ := minutes_cons offset
  rw [hp]
  cases offset.hasColon <;> simp [hc, isBlank_of_isDigit hd]

section Clock

variable {layout : Layout} {layouts : List Layout} {noted : Reading} {text : List Char}

theorem findSome?_first {instant : Instant} (h : layout.readFrom noted text = .ok instant) :
    ((layout :: layouts).findSome? fun l => (l.readFrom noted text).toOption) = some instant := by
  rw [List.findSome?_cons, h]
  rfl

theorem findSome?_next (h : (layout.readFrom noted text).toOption = none) :
    ((layout :: layouts).findSome? fun l => (l.readFrom noted text).toOption) =
      layouts.findSome? fun l => (l.readFrom noted text).toOption := by
  rw [List.findSome?_cons, h]

/-- **A time of day is read by one of the layouts of a clock**, and none before it fits. -/
theorem findSome?_clockLayouts (date : Date) (time : Time) (h0 : 0 ≤ date.year)
    (h9 : date.year ≤ 9999) :
    (clockLayouts.findSome? fun l => (l.readFrom (dateReading date) time.clock).toOption) =
      some (Stamp.instant ⟨date, some time, h0, h9⟩) := by
  have hend := Layout.readFrom_nil (Stamp.instant?_reading ⟨date, some time, h0, h9⟩)
  have hminutes : ∀ {field : Part → Item}, ReadsTwoDigits field → ∀ items : Layout,
      (minutesBy field ++ items).readFrom (dateReading date) time.clock =
        items.readFrom { dateReading date with hour := time.hour, minute := time.minute }
          (time.seconds.elim [] Seconds.text) :=
    fun hfield => Layout.readFrom_append (take_minutes hfield time _ _)
  obtain ⟨gap, hour, minute, seconds, hh, hm⟩ := time
  cases seconds with
  | none =>
    have hstop : ∀ {field : Part → Item}, ReadsTwoDigits field → ∀ items : Layout,
        ((minutesBy field ++ (secondsBy field ++ items)).readFrom (dateReading date)
          (Time.clock ⟨gap, hour, minute, none, hh, hm⟩)).toOption = none := by
      intro field hfield items
      rw [hminutes hfield]
      exact Layout.readFrom_cons_error rfl _
    rw [clockLayouts, findSome?_next (hstop readsTwoDigits_exact _),
      findSome?_next (hstop readsTwoDigits_number _),
      findSome?_next (hstop readsTwoDigits_number _)]
    refine findSome?_first ?_
    rw [hminutes readsTwoDigits_number]
    rw [Stamp.reading_eq _ rfl] at hend
    exact hend
  | some seconds =>
    have hseconds : ∀ {field : Part → Item}, ReadsTwoDigits field → ∀ items : Layout,
        (minutesBy field ++ (secondsBy field ++ items)).readFrom (dateReading date)
          (Time.clock ⟨gap, hour, minute, some seconds, hh, hm⟩) =
          items.readFrom { dateReading date with
            hour, minute, second := seconds.second, nanos := nanosOf seconds.fraction }
            seconds.zone.text := by
      intro field hfield items
      rw [hminutes hfield]
      exact Layout.readFrom_append (take_seconds hfield seconds rfl) items
    obtain ⟨second, fraction, zone, hs, hd⟩ := seconds
    rw [clockLayouts]
    cases zone with
    | unstated =>
      rw [findSome?_next, findSome?_next, findSome?_first]
      · rw [hseconds readsTwoDigits_number]
        exact hend
      · rw [hseconds readsTwoDigits_number]
        exact Layout.readFrom_cons_error rfl _
      · rw [hseconds readsTwoDigits_exact]
        exact Layout.readFrom_cons_error rfl _
    | utc =>
      refine findSome?_first ?_
      rw [hseconds readsTwoDigits_exact]
      exact (Layout.readFrom_cons (Item.take_exactOffset_utc _ _) _).trans hend
    | offset o =>
      cases ho : o.hasColon with
      | true =>
        refine findSome?_first ?_
        rw [hseconds readsTwoDigits_exact]
        exact (Layout.readFrom_cons (take_exactOffset_colon ho _) _).trans hend
      | false =>
        rw [findSome?_next, findSome?_first]
        · rw [hseconds readsTwoDigits_number]
          exact (Layout.readFrom_cons (take_offset o _) _).trans hend
        · rw [hseconds readsTwoDigits_exact]
          exact Layout.readFrom_cons_error (take_exactOffset_plain ho _) _

end Clock

/-! ## Reading stamps -/

theorem head_clock (time : Time) : ∀ c ∈ time.clock.head?, c.isDigit = true :=
  isDigit_head_padded _ _ _

/-- **Every stamp is read as the instant that it means.** -/
theorem instant_stamp (stamp : Stamp) : Iso8601.instant stamp.text = .ok stamp.instant := by
  obtain ⟨date, time, h0, h9⟩ := stamp
  cases time with
  | none =>
    have hread := Layout.readFrom_nil (Stamp.instant?_reading ⟨date, none, h0, h9⟩)
    rw [Stamp.reading_eq _ rfl] at hread
    rw [Stamp.text, Option.elim_none, Iso8601.instant, findSome?_timeLayouts_date h0 h9]
    exact (read_dateItems h0 h9 [] []).trans hread
  | some time =>
    rw [Stamp.text, Option.elim_some, Iso8601.instant,
      findSome?_timeLayouts h0 h9 time.gap (head_clock time), findSome?_clockLayouts]

/-- **A stamp is read unless its instant lies in a year that instants are not written in.** -/
theorem parse_stamp (stamp : Stamp) :
    parse stamp.text =
      if stamp.instant.HasPlainYear then .ok stamp.instant else .error .yearOutOfRange := by
  have h4 : hasFourDigitYear stamp.text = true := by
    have h9 := stamp.year_le
    rw [Stamp.text, Date.text, yearText_plain stamp.year_nonneg h9]
    simp only [List.append_assoc, List.cons_append]
    exact hasFourDigitYear_append (Text.length_padded (by decide) (by omega))
      fun _ => isDigit_of_mem_padded
  rw [parse, instant_stamp, h4]
  simp only [true_and]
  rfl

/-- Behind UTC the last evening of a plain year belongs to the next year. -/
example :
    let zone := Zone.offset ⟨true, 2, 0, true, by decide, by decide⟩
    let seconds : Seconds := ⟨0, [], zone, by decide, nofun⟩
    let time : Time := ⟨.letter, 23, 0, some seconds, by decide, by decide⟩
    let stamp : Stamp := ⟨⟨9999, 12, 31, by decide, by decide⟩, some time, by decide, by decide⟩
    String.ofList stamp.text = "9999-12-31T23:00:00-02:00" ∧ stamp.instant.year = 10000 := by
  decide +kernel

end Iso8601

end SchemaScalar.Calendar
