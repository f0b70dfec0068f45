import Mathlib.Data.List.Pairwise
import SchemaScalar.Proofs.Calendar.Manner

/-!
# Layouts in any order

Some texts fit several layouts: one in the form of interchange with an offset such as `+01:00` fits
a lenient layout too. `Iso8601.order_of_layouts` says that the order in which the layouts are tried
cannot be told from the instants that are read.

Two layouts are compared from front to back. As long as both go on in the text, they take alike
(`Layout.Alike`): what they take is the same, and so is what they note. Where one layout is at its
end and the other is not, it is enough that they end alike (`Layout.EndAlike`): they note the same
if both come to the end of the text, or never both do.
-/

namespace SchemaScalar.Calendar

open Json (exists_of_bind_eq_ok toOption_eq_some_iff)
open Text (decimalValue decimalValue_lt padded_decimalValue)

/-! ## Layouts that take alike -/

namespace Layout

/-- Whether two layouts that both take something off a text take the same and note the same. -/
def Alike (layout other : Layout) : Prop :=
  ∀ reading text result result', layout.take reading text = .ok result →
    other.take reading text = .ok result' → result = result'

/-- Whether two layouts that both take all of a text note the same. -/
def EndAlike (layout other : Layout) : Prop :=
  ∀ reading text noted noted', layout.take reading text = .ok (noted, []) →
    other.take reading text = .ok (noted', []) → noted = noted'

variable {layout other items others : Layout}

theorem take_append_eq_ok_iff {reading : Reading} {text : List Char}
    {result : Reading × List Char} :
    (layout ++ items).take reading text = .ok result ↔
      ∃ noted rest, layout.take reading text = .ok (noted, rest) ∧
        items.take noted rest = .ok result := by
  constructor
  · intro h
    rw [take, List.foldlM_append] at h
    obtain ⟨⟨noted, rest⟩, hfront, hrest⟩ := exists_of_bind_eq_ok h
    exact ⟨noted, rest, hfront, hrest⟩
  · rintro ⟨noted, rest, hfront, hrest⟩
    rw [take_append hfront, hrest]

theorem take_singleton (item : Item) (reading : Reading) (text : List Char) :
    Layout.take [item] reading text = item.take reading text := by
  simp [take, List.foldlM_cons]

theorem alike_refl (layout : Layout) : layout.Alike layout := by
  intro reading text result result' h h'
  exact Except.ok.inj (h.symm.trans h')

theorem Alike.symm (h : layout.Alike other) : other.Alike layout := by
  intro reading text result result' ht ht'
  exact (h _ _ _ _ ht' ht).symm

theorem Alike.append (hfront : layout.Alike other) (hrest : items.Alike others) :
    (layout ++ items).Alike (other ++ others) := by
  intro reading text result result' h h'
  obtain ⟨noted, rest, ht, hs⟩ := take_append_eq_ok_iff.1 h
  obtain ⟨noted', rest', ht', hs'⟩ := take_append_eq_ok_iff.1 h'
  cases hfront _ _ _ _ ht ht'
  exact hrest _ _ _ _ hs hs'

theorem Alike.endAlike (h : layout.Alike other) : layout.EndAlike other := by
  intro reading text noted noted' ht ht'
  exact congrArg Prod.fst (h _ _ _ _ ht ht')

theorem EndAlike.symm (h : layout.EndAlike other) : other.EndAlike layout := by
  intro reading text noted noted' ht ht'
  exact (h _ _ _ _ ht' ht).symm

instance : Std.Symm EndAlike := ⟨fun _ _ => EndAlike.symm⟩

/-- **Layouts that go on alike and end alike note the same.** -/
theorem Alike.append_endAlike (hfront : layout.Alike other) (hrest : items.EndAlike others) :
    (layout ++ items).EndAlike (other ++ others) := by
  intro reading text noted noted' h h'
  obtain ⟨front, rest, ht, hs⟩ := take_append_eq_ok_iff.1 h
  obtain ⟨front', rest', ht', hs'⟩ := take_append_eq_ok_iff.1 h'
  cases hfront _ _ _ _ ht ht'
  exact hrest _ _ _ _ hs hs'

/-- A layout that is at its end and one that wants more do not both come to the end of the text. -/
theorem endAlike_nil (h : ∀ reading result, layout.take reading [] ≠ .ok result) :
    layout.EndAlike [] := by
  intro reading text noted noted' ht ht'
  cases ht'
  exact absurd ht (h _ _)

/-- Layouts that end alike never read one text as two instants. -/
theorem EndAlike.read (h : layout.EndAlike other) {text : List Char} {instant instant' : Instant}
    (hr : layout.read text = .ok instant) (hr' : other.read text = .ok instant') :
    instant = instant' := by
  obtain ⟨reading, ht, hi⟩ := read_eq_ok_iff.1 hr
  obtain ⟨reading', ht', hi'⟩ := read_eq_ok_iff.1 hr'
  rw [h _ _ _ _ ht ht', hi'] at hi
  exact (Option.some.inj hi).symm

end Layout

/-! ## Exact and lenient items -/

namespace Item

/-- Items are alike if the second takes whatever the first takes. -/
theorem alike_of_take {item other : Item}
    (h : ∀ {reading text result}, item.take reading text = .ok result →
      other.take reading text = .ok result) : Layout.Alike [item] [other] := by
  intro reading text result result' ht ht'
  rw [Layout.take_singleton] at ht ht'
  exact Except.ok.inj ((h ht).symm.trans ht')

/-- A year of four digits is taken leniently too. -/
theorem alike_year : Layout.Alike [exactYear] [year] := by
  apply alike_of_take
  intro reading text result h
  obtain ⟨⟨digits, rest⟩, hd, h⟩ := exists_of_bind_eq_ok h
  cases h
  obtain ⟨rfl, hall, hl⟩ := takeExactly_eq_ok hd
  have hn : decimalValue digits < 10000 := by simpa [hl] using decimalValue_lt hall
  have hp := padded_decimalValue hall (by rw [hl]; decide)
  have h := take_year hn reading rest
  rwa [← hl, hp] at h

/-- A field of two digits is taken leniently too. -/
theorem alike_number (part : Part) : Layout.Alike [exact part] [number part] := by
  apply alike_of_take
  intro reading text result h
  obtain ⟨⟨digits, rest⟩, hd, h⟩ := exists_of_bind_eq_ok h
  obtain ⟨noted, hn, h⟩ := exists_of_bind_eq_ok h
  cases h
  obtain ⟨rfl, hall, hl⟩ := takeExactly_eq_ok hd
  obtain ⟨rfl, hr⟩ := note_eq_ok hn
  have hp := padded_decimalValue hall (by rw [hl]; decide)
  have h := take_number part hr reading rest
  rwa [← hl, hp] at h

/-- An offset with a colon is taken leniently too. -/
theorem take_offset_of_colon {reading : Reading} {text : List Char}
    {result : Reading × List Char} (h : takeOffset (takeMark ':') reading text = .ok result) :
    offset.take reading text = .ok result := by
  obtain ⟨⟨isNegative, text₁⟩, hs, h⟩ := exists_of_bind_eq_ok h
  obtain ⟨⟨hours, text₂⟩, hh, h⟩ := exists_of_bind_eq_ok h
  obtain ⟨text₃, hg, h⟩ := exists_of_bind_eq_ok h
  obtain ⟨⟨minutes, text₄⟩, hm, h⟩ := exists_of_bind_eq_ok h
  have hfront : dropBlanks text = text := by
    obtain ⟨sign, rfl, hsign⟩ := takeSign_eq_ok hs
    rcases hsign with rfl | rfl | rfl <;> rfl
  -- behind the colon the minutes begin, so that nothing more is passed over
  have hgap : (text₂.dropWhile fun c => c == ':' || Text.isBlank c) = text₃ := by
    obtain rfl := takeMark_eq_ok hg
    obtain ⟨rfl, hd, hl⟩ := takeExactly_eq_ok hm
    obtain ⟨c, others, rfl⟩ := List.exists_cons_of_length_eq_add_one hl
    have hc := hd c List.mem_cons_self
    have hcolon : c ≠ ':' := by
      rintro rfl
      cases hc
    simp [hcolon, isBlank_of_isDigit hc]
  simp only [take, takeOffset, hfront, hs, hh, hgap, hm, ok_bind]
  exact h

theorem alike_offset : Layout.Alike [exactOffset] [offset] := by
  intro reading text result result' h h'
  rw [Layout.take_singleton] at h h'
  simp only [take] at h
  split at h
  · cases h'
  · cases h'
  · rw [take_offset_of_colon h] at h'
    exact Except.ok.inj h'

end Item

namespace Iso8601

open Layout (alike_refl endAlike_nil take_append_eq_ok_iff take_singleton)

/-! ## Where date and time meet -/

/-- Where a letter stands, no hour is found by passing over white space. -/
theorem not_hour_of_letter {c : Char} (hc : c = 'T' ∨ c = 't') (reading : Reading)
    (clock : List Char) (result : Reading × List Char) :
    Layout.take [.blanks, .number .hour] reading (c :: clock) ≠ .ok result := by
  rcases hc with rfl | rfl <;> rintro ⟨⟩

theorem not_hour_of_nil (gap : Gap) (items : Layout) (reading : Reading)
    (result : Reading × List Char) :
    Layout.take (gapItem gap :: .number .hour :: items) reading [] ≠ .ok result := by
  cases gap <;> rintro ⟨⟩

/-- Of two lenient layouts with different gaps only one comes to the hour. -/
theorem alike_gaps (gap gap' : Gap) :
    Layout.Alike [gapItem gap, .number .hour] [gapItem gap', .number .hour] := by
  have hother : Layout.Alike [.mark 'T', .number .hour] [.blanks, .number .hour] := by
    intro reading text result result' h h'
    change Layout.take ([.mark 'T'] ++ [.number .hour]) reading text = .ok result at h
    obtain ⟨noted, clock, hmark, -⟩ := take_append_eq_ok_iff.1 h
    obtain ⟨_, hmark, -⟩ := exists_of_bind_eq_ok ((take_singleton _ _ _).symm.trans hmark)
    rw [takeMark_eq_ok hmark] at h'
    exact absurd h' (not_hour_of_letter (.inl rfl) _ _ _)
  cases gap <;> cases gap'
  · exact alike_refl _
  · exact hother
  · exact hother.symm
  · exact alike_refl _

/-- An hour in two digits starts with a digit. -/
theorem head_of_hour {reading : Reading} {clock : List Char} {result : Reading × List Char}
    (h : Layout.take [.exact .hour] reading clock = .ok result) :
    ∀ c ∈ clock.head?, c.isDigit = true := by
  obtain ⟨noted, rest⟩ := result
  rw [take_singleton] at h
  obtain ⟨piece, rfl, hpiece⟩ := Item.takes_of_take h
  cases hpiece with
  | exact hspells =>
    obtain ⟨c, others, rfl⟩ := List.exists_cons_of_length_eq_add_one hspells.length_eq
    simpa using hspells.areDigits c List.mem_cons_self

/-- What stands between the date and the hour in interchange is taken leniently too, by the layouts
with that gap. -/
theorem alike_separator (gap : Gap) :
    Layout.Alike [.separator, .exact .hour] [gapItem gap, .number .hour] := by
  intro reading text result result' h h'
  change Layout.take ([.separator] ++ [.exact .hour]) reading text = .ok result at h
  obtain ⟨noted, clock, hs, hh⟩ := take_append_eq_ok_iff.1 h
  rw [take_singleton] at hs
  obtain ⟨_, rfl, hpiece⟩ := Item.takes_of_take hs
  cases hpiece with
  | @separator c hc =>
    by_cases hgap : c = gap.char
    · subst hgap
      have hclock := Layout.take_cons (take_gapItem gap (head_of_hour hh) reading) [.number .hour]
      exact Item.alike_number .hour _ _ _ _ hh (hclock.symm.trans h')
    · cases gap with
      | letter =>
        rcases hc with rfl | rfl | rfl
        · exact absurd rfl hgap
        · cases h'
        · cases h'
      | space =>
        refine absurd h' (not_hour_of_letter ?_ _ _ _)
        rcases hc with rfl | rfl | rfl
        · exact .inl rfl
        · exact .inr rfl
        · exact absurd rfl hgap

/-! ## From the date to the end -/

theorem alike_date : (dateBy .exactYear .exact).Alike (dateBy .year .number) :=
  Item.alike_year.append ((alike_refl [.mark '-']).append ((Item.alike_number .month).append
    ((alike_refl [.mark '-']).append (Item.alike_number .day))))

theorem alike_seconds : (secondsBy .exact).Alike (secondsBy .number) :=
  (alike_refl [.mark ':']).append ((Item.alike_number .second).append (alike_refl [.fraction]))

/-- What follows the hour ends alike if what follows the minutes does. -/
theorem endAlike_minutes {gapItems gapItems' : Layout} (hgap : gapItems.Alike gapItems')
    {field field' : Part → Item} (hminute : Layout.Alike [field .minute] [field' .minute])
    {items items' : Layout} (hitems : items.EndAlike items') :
    (gapItems ++ ([.mark ':', field .minute] ++ items)).EndAlike
      (gapItems' ++ ([.mark ':', field' .minute] ++ items')) :=
  hgap.append_endAlike (((alike_refl [.mark ':']).append hminute).append_endAlike hitems)

/-- What may follow the minutes in lenient layouts ends alike: it stops at different places. -/
theorem endAlike_endings {items items' : Layout} (hi : items ∈ lenientEndings)
    (hi' : items' ∈ lenientEndings) : items.EndAlike items' := by
  have hzone : Layout.EndAlike (secondsBy .number ++ [.offset]) (secondsBy .number ++ []) :=
    (alike_refl _).append_endAlike (endAlike_nil (by rintro _ _ ⟨⟩))
  have hseconds : ∀ zone : Layout, Layout.EndAlike (secondsBy .number ++ zone) [] :=
    fun zone => endAlike_nil (by rintro _ _ ⟨⟩)
  have hpairs : lenientEndings.Pairwise Layout.EndAlike := by
    simp only [lenientEndings, List.pairwise_cons, List.mem_cons, List.not_mem_nil, or_false]
    refine ⟨?_, ?_, ?_, .nil⟩
    · rintro _ (rfl | rfl)
      · exact hzone
      · exact hseconds _
    · rintro _ rfl
      exact hseconds _
    · rintro _ ⟨⟩
  exact hpairs.forall_of_forall (fun _ _ => (alike_refl _).endAlike) hi hi'

/-- The end of interchange is one with an offset, or no end of a lenient layout. -/
theorem endAlike_interchange {items : Layout} (hi : items ∈ lenientEndings) :
    Layout.EndAlike (secondsBy .exact ++ [.exactOffset]) items := by
  simp only [lenientEndings, List.mem_cons, List.not_mem_nil, or_false] at hi
  rcases hi with rfl | rfl | rfl
  · exact alike_seconds.append_endAlike (Item.alike_offset.endAlike)
  · exact alike_seconds.append_endAlike (endAlike_nil (by rintro _ _ ⟨⟩))
  · exact endAlike_nil (by rintro _ _ ⟨⟩)

/-- The lenient layout with the given gap and end. -/
def lenientLayout (gap : Gap) (items : Layout) : Layout :=
  dateBy .year .number ++ gapItem gap :: (minutesBy .number ++ items)

theorem endAlike_lenient (gap gap' : Gap) {items items' : Layout} (hi : items ∈ lenientEndings)
    (hi' : items' ∈ lenientEndings) :
    (lenientLayout gap items).EndAlike (lenientLayout gap' items') :=
  (alike_refl _).append_endAlike
    (endAlike_minutes (alike_gaps gap gap') (alike_refl _) (endAlike_endings hi hi'))

theorem interchange_endAlike_lenient (gap : Gap) {items : Layout} (hi : items ∈ lenientEndings) :
    interchange.EndAlike (lenientLayout gap items) :=
  alike_date.append_endAlike
    (endAlike_minutes (alike_separator gap) (Item.alike_number .minute) (endAlike_interchange hi))

theorem interchange_endAlike_date : interchange.EndAlike (dateBy .year .number ++ []) :=
  alike_date.append_endAlike (endAlike_nil (by rintro _ _ ⟨⟩))

theorem lenient_endAlike_date (gap : Gap) (items : Layout) :
    (lenientLayout gap items).EndAlike (dateBy .year .number ++ []) :=
  (alike_refl _).append_endAlike (endAlike_nil (not_hour_of_nil gap _))

/-- **Any two layouts end alike.** -/
theorem endAlike_of_mem {layout other : Layout} (hl : layout ∈ layouts) (ho : other ∈ layouts) :
    layout.EndAlike other := by
  rcases layouts_cases hl with rfl | rfl | ⟨gap, items, hi, rfl⟩ <;>
    rcases layouts_cases ho with rfl | rfl | ⟨gap', items', hi', rfl⟩
  case inl.inl => exact (alike_refl _).endAlike
  case inl.inr.inl => exact interchange_endAlike_date
  case inl.inr.inr => exact interchange_endAlike_lenient gap' hi'
  case inr.inl.inl => exact interchange_endAlike_date.symm
  case inr.inl.inr.inl => exact (alike_refl _).endAlike
  case inr.inl.inr.inr => exact (lenient_endAlike_date gap' items').symm
  case inr.inr.inl => exact (interchange_endAlike_lenient gap hi).symm
  case inr.inr.inr.inl => exact lenient_endAlike_date gap items
  case inr.inr.inr.inr => exact endAlike_lenient gap gap' hi hi'

/-! ## Any order -/

/-- The instant by the first of some layouts that fits a text. -/
def firstFit (order : List Layout) (text : List Char) : Option Instant :=
  order.findSome? fun layout => (layout.read text).toOption

theorem toOption_instant (text : List Char) :
    (Iso8601.instant text).toOption = firstFit layouts text := by
  unfold Iso8601.instant firstFit layouts
  rw [List.findSome?_append, List.findSome?_singleton]
  cases timeLayouts.findSome? fun layout => (layout.read text).toOption <;> rfl

/-- **The first layout that fits reads what any that fits would read.** -/
theorem firstFit_eq_some_iff {order : List Layout} (h : ∀ layout ∈ order, layout ∈ layouts)
    (text : List Char) (instant : Instant) :
    firstFit order text = some instant ↔ ∃ layout ∈ order, layout.read text = .ok instant := by
  have hfits : ∀ {found}, firstFit order text = some found →
      ∃ layout ∈ order, layout.read text = .ok found := by
    intro found hfirst
    obtain ⟨layout, hmem, hread⟩ := List.exists_of_findSome?_eq_some hfirst
    exact ⟨layout, hmem, toOption_eq_some_iff.1 hread⟩
  refine ⟨hfits, ?_⟩
  rintro ⟨layout, hmem, hread⟩
  cases hfirst : firstFit order text with
  | none =>
    have hnone := List.findSome?_eq_none_iff.1 hfirst layout hmem
    rw [toOption_eq_some_iff.2 hread] at hnone
    cases hnone
  | some found =>
    obtain ⟨other, hother, hfound⟩ := hfits hfirst
    rw [(endAlike_of_mem (h other hother) (h layout hmem)).read hfound hread]

/-- **The order in which layouts are tried does not matter.** Whatever the text, layouts that fit it
read the same instant, so that the layouts in any order read what they read in their own. -/
theorem order_of_layouts (text : List Char) :
    (∀ layout ∈ layouts, ∀ other ∈ layouts, ∀ instant instant',
      layout.read text = .ok instant → other.read text = .ok instant' → instant = instant') ∧
    ∀ order : List Layout, order.Perm layouts →
      firstFit order text = (Iso8601.instant text).toOption := by
  constructor
  · intro layout hl other ho instant instant'
    exact (endAlike_of_mem hl ho).read
  · intro order hperm
    rw [toOption_instant]
    apply Option.ext
    intro instant
    rw [firstFit_eq_some_iff fun _ => hperm.mem_iff.1, firstFit_eq_some_iff fun _ => id]
    simp only [hperm.mem_iff]

/-- A leap second ahead of UTC fits two layouts; tried in the opposite order, they read it as the
same instant. -/
theorem order_of_layouts_leapSecond :
    let text := "2017-01-01T00:59:60.25+01:00".toList
    let instant : Instant :=
      ⟨1483228799, 1250000000, by decide, by decide, by decide, by decide⟩
    interchange.read text = .ok instant ∧
    (lenientLayout .letter (secondsBy .number ++ [.offset])).read text = .ok instant ∧
    firstFit layouts.reverse text = some instant := by
  intro text instant
  have hread : interchange.read text = .ok instant := toOption_eq_some_iff.1 (by decide +kernel)
  obtain ⟨found, hfound⟩ : ∃ found,
      (lenientLayout .letter (secondsBy .number ++ [.offset])).read text = .ok found :=
    ⟨instant, toOption_eq_some_iff.1 (by decide +kernel)⟩
  have hsame := (order_of_layouts text).1 _ (by decide) _ (by decide) _ _ hread hfound
  refine ⟨hread, hsame ▸ hfound, ?_⟩
  rw [(order_of_layouts text).2 _ (List.reverse_perm _)]
  decide +kernel

end Iso8601

end SchemaScalar.Calendar
