import SchemaScalar.Proofs.Calendar.Manner

/-!
# Refused texts

A text is refused for its year if it denotes an instant all the same. Then the year is out of range,
as it is written or in UTC, or it is written in another way than with four digits
(`Iso8601.parse_eq_yearOutOfRange_iff`). All other texts that are refused fit no layout
(`Iso8601.parse_eq_unreadable_iff`).
-/

namespace SchemaScalar.Calendar

/-- A year in four digits is in range as written. -/
theorem SpellsYear.range_of_isFourDigits {blanks piece : List Char} {year : Int}
    (h : SpellsYear piece year) (h4 : IsFourDigits blanks piece) : 0 ≤ year ∧ year ≤ 9999 := by
  obtain ⟨-, hd, hl⟩ := h4
  have hlt := Text.decimalValue_lt hd
  rw [hl] at hlt
  rw [h.eq_decimalValue hd]
  omega

namespace Iso8601

/-! ## Texts that denote an instant -/

/-- The instant that a text denotes, and the fields that it states in a layout that reads it. -/
structure Denotes (text : List Char) (reading : Reading) (instant : Instant) : Prop where
  instant_eq : Iso8601.instant text = .ok instant
  read : ∃ layout ∈ layouts, layout.take {} text = .ok (reading, []) ∧
    reading.instant? = some instant

theorem exists_denotes_iff {text : List Char} {instant : Instant} :
    (∃ reading, Denotes text reading instant) ↔ Iso8601.instant text = .ok instant := by
  constructor
  · rintro ⟨_, h⟩
    exact h.instant_eq
  · intro h
    obtain ⟨layout, hmem, hread⟩ := exists_layout_of_instant h
    obtain ⟨reading, ht, hi⟩ := Layout.read_eq_ok_iff.1 hread
    exact ⟨reading, h, layout, hmem, ht, hi⟩

/-- A text denotes no instant if no layout reads it. -/
theorem instant_eq_error_iff {text : List Char} :
    (∃ problem, Iso8601.instant text = .error problem) ↔
      ∀ layout ∈ layouts, ∀ instant, layout.read text ≠ .ok instant := by
  constructor
  · rintro ⟨problem, h⟩ layout hmem instant hread
    unfold Iso8601.instant at h
    split at h
    · cases h
    · next hnone =>
      rcases List.mem_append.1 hmem with hmem | hmem
      · have hl := List.findSome?_eq_none_iff.1 hnone layout hmem
        rw [hread] at hl
        cases hl
      · obtain rfl := List.mem_singleton.1 hmem
        cases hread.symm.trans h
  · intro h
    cases hi : Iso8601.instant text with
    | error problem => exact ⟨problem, rfl⟩
    | ok instant =>
      obtain ⟨layout, hmem, hread⟩ := exists_layout_of_instant hi
      exact absurd hread (h layout hmem instant)

/-- A layout starts with a date, and what follows it states no part of the date. -/
theorem yearAt_of_takes {manner : Manner} {yearItem : Item} {field : Part → Item}
    (hy : yearItem = .exactYear ∨ yearItem = .year) (hf : manner.Reads field) {items : Layout}
    (hkeep : ∀ item ∈ items, item.statesDate = false) {text : List Char} {reading : Reading}
    (h : (dateBy yearItem field ++ items).Takes text {} reading) :
    ∃ blanks piece, YearAt text blanks piece reading.year := by
  obtain ⟨front, rest, noted, rfl, hdate, hitems⟩ := Layout.takes_append h
  obtain ⟨blanks, piece, month, day, year, m, d, hb, hspells, -, -, rfl, rfl⟩ :=
    takes_date hy hf hdate
  have hyear : reading.year = year := congrArg Prod.fst (Layout.onDate_of_takes hkeep hitems)
  refine ⟨blanks, piece, hb, ?_, month ++ '-' :: day ++ rest, List.append_assoc ..⟩
  rw [hyear]
  exact hspells

/-- **A text that denotes an instant starts with the year that it states.** -/
theorem Denotes.exists_yearAt {text : List Char} {reading : Reading} {instant : Instant}
    (h : Denotes text reading instant) :
    ∃ blanks piece, YearAt text blanks piece reading.year := by
  obtain ⟨layout, hmem, ht, -⟩ := h.read
  obtain ⟨piece, hp, htakes⟩ := Layout.takes_of_take ht
  obtain rfl : text = piece := hp.trans (List.append_nil piece)
  rcases layouts_cases hmem with rfl | hdate | ⟨gap, items, hitems, rfl⟩
  · exact yearAt_of_takes (.inl rfl) Manner.reads_interchange (by decide) htakes
  · have hkeep : ∀ item ∈ ([] : Layout), item.statesDate = false := by simp
    rw [hdate, ← List.append_nil (dateBy _ _)] at htakes
    exact yearAt_of_takes (.inr rfl) Manner.reads_loose hkeep htakes
  · exact yearAt_of_takes (.inr rfl) Manner.reads_loose (statesDate_lenient gap hitems) htakes

/-! ## Why texts are refused -/

/-- **A text is refused for its year if it denotes an instant** and the year is out of range, as
written or in UTC, or not written in four digits. -/
theorem parse_eq_yearOutOfRange_iff {text : List Char} :
    parse text = .error .yearOutOfRange ↔
      ∃ reading instant blanks piece, Denotes text reading instant ∧
        YearAt text blanks piece reading.year ∧
        (¬ (0 ≤ reading.year ∧ reading.year ≤ 9999) ∨ ¬ instant.HasPlainYear ∨
          ¬ IsFourDigits blanks piece) := by
  constructor
  · intro h
    unfold parse at h
    split at h
    · cases h
    · next instant hi =>
      split at h
      · cases h
      · next hrefused =>
        obtain ⟨reading, hd⟩ := exists_denotes_iff.2 hi
        obtain ⟨blanks, piece, hy⟩ := hd.exists_yearAt
        refine ⟨reading, instant, blanks, piece, hd, hy, .inr ?_⟩
        by_cases hp : instant.HasPlainYear
        · right
          intro h4
          exact hrefused ⟨(hasFourDigitYear_iff hy).2 h4, hp⟩
        · exact .inl hp
  · rintro ⟨reading, instant, blanks, piece, hd, hy, hout⟩
    unfold parse
    rw [hd.instant_eq]
    refine if_neg ?_
    rintro ⟨h4, hp⟩
    have hfour := (hasFourDigitYear_iff hy).1 h4
    rcases hout with hout | hout | hout
    · exact hout (hy.spells.range_of_isFourDigits hfour)
    · exact hout hp
    · exact hout hfour

/-- Every other text that is refused fits no layout. -/
theorem parse_eq_unreadable_iff {text : List Char} :
    (∃ problem, parse text = .error (.unreadable problem)) ↔
      ∀ layout ∈ layouts, ∀ instant, layout.read text ≠ .ok instant := by
  rw [← instant_eq_error_iff]
  unfold parse
  cases Iso8601.instant text with
  | error problem => simp
  | ok instant =>
    dsimp only
    split <;> simp

end Iso8601

end SchemaScalar.Calendar
