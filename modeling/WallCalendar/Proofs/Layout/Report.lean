import WallCalendar.Layout.Report
import WallCalendar.Proofs.Date.Civil
import WallCalendar.Proofs.Grid.Year
import WallCalendar.Proofs.Layout.WellFormed
import WallCalendar.Proofs.Text.Decimal

/-!
The report names the days that its segments cover.

The line of a segment looks its first and its last day up in the day list, by row and column. The
day list holds every day of the grid at its ordinal and the segment lies inside the grid, so both
days are found, and they are the ends of what the segment covers. On a side without a mark that is
an end of the event itself, on a side with a mark an end of the week.
-/

namespace WallCalendar

/-! ### Days in words -/

namespace Date

/-- The weekdays, by the days that their numbers have over whole weeks. -/
def weekdays : List (String × Int) :=
  [("Sun", 0), ("Mon", 1), ("Tue", 2), ("Wed", 3), ("Thu", 4), ("Fri", 5), ("Sat", 6)]

/-- The months, by their numbers. -/
def months : List (String × Nat) :=
  [("Jan", 1), ("Feb", 2), ("Mar", 3), ("Apr", 4), ("May", 5), ("Jun", 6), ("Jul", 7), ("Aug", 8),
    ("Sep", 9), ("Oct", 10), ("Nov", 11), ("Dec", 12)]

/-- The text names a day: by its weekday, its month and the day of the month, a number without
leading zeros. -/
def IsNamed (d : Date) (text : String) : Prop :=
  ∃ (weekday month : String) (digits : List Char) (c : Civil),
    text = weekday ++ " " ++ month ++ " " ++ String.ofList digits ∧
    (weekday, d.number % 7) ∈ weekdays ∧ (month, c.month) ∈ months ∧
    (∀ x ∈ digits, x.isDigit = true) ∧ digits.head? ≠ some '0' ∧
    Text.digitsValue digits = c.day ∧ ofCivil? c = some d

theorem weekdayName_mem (d : Date) : (d.weekdayName, d.number % 7) ∈ weekdays := by
  have hrest : d.number % 7 = 0 ∨ d.number % 7 = 1 ∨ d.number % 7 = 2 ∨ d.number % 7 = 3 ∨
      d.number % 7 = 4 ∨ d.number % 7 = 5 ∨ d.number % 7 = 6 := by omega
  rw [weekdayName, weekday]
  rcases hrest with h | h | h | h | h | h | h <;> rw [h] <;> decide

theorem monthName_mem (d : Date) :
    ((monthNames[d.civil.month - 1]?).getD "", d.civil.month) ∈ months := by
  obtain ⟨⟨hlow, hhigh⟩, -⟩ := Civil.ofNumber_bounds d.number
  have hlt : d.civil.month - 1 < monthNames.length := by
    rw [show monthNames.length = 12 by decide]
    exact Nat.sub_one_lt_of_le hlow hhigh
  rw [show months = monthNames.zipIdx 1 by decide, List.mk_mem_zipIdx_iff_le_and_getElem?_sub,
    List.getElem?_eq_getElem hlt]
  exact ⟨hlow, rfl⟩

/-- A day in words is named by them. -/
theorem isNamed_plain (d : Date) : d.IsNamed d.plain := by
  have hday : d.civil.day ≠ 0 :=
    Nat.one_le_iff_ne_zero.mp (Civil.ofNumber_bounds d.number).2.1
  refine ⟨d.weekdayName, (monthNames[d.civil.month - 1]?).getD "", Text.decimal d.civil.day,
    d.civil, ?_, d.weekdayName_mem, d.monthName_mem, Text.isDigit_of_mem_decimal _,
    Text.head?_decimal_ne_zero hday, Text.digitsValue_decimal _, d.ofCivil?_civil⟩
  simp only [plain, monthDay, Text.natText, String.append_assoc]

theorem IsNamed.ne_unknown {d : Date} {text : String} (h : d.IsNamed text) : text ≠ "?" := by
  rintro rfl
  obtain ⟨weekday, month, digits, -, htext, -⟩ := h
  have hblank : ' ' ∈ "?".toList := by
    rw [htext]
    simp
  exact absurd hblank (by decide)

end Date

/-! ### Segments -/

/-- The days that a segment covers go from `first` to `last`. -/
structure Segment.Extends (g : Grid) (s : Segment) (first last : Date) : Prop where
  first_at : g.date? (7 * s.row + s.colStart) = some first
  last_at : g.date? (7 * s.row + s.colEnd - 1) = some last
  covers_iff : ∀ d, s.covers (g.ord d) = true ↔ first ≤ d ∧ d ≤ last
  /-- Without a mark in front, the event begins with the first of the days. -/
  begins : s.continuesBefore = false → first = s.event.startDate
  /-- With a mark in front, the first of the days is the Sunday of the row. -/
  sunday : s.continuesBefore = true → g.date? (7 * s.row) = some first ∧ first.weekday = 0
  /-- Without a mark behind, the event ends with the last of the days. -/
  ends : s.continuesAfter = false → last = s.event.lastDay
  /-- With a mark behind, the last of the days is the Saturday of the row. -/
  saturday : s.continuesAfter = true → g.date? (7 * s.row + 6) = some last ∧ last.weekday = 6

namespace Layout

variable {g : Grid} {events : List Event} {l : Layout} {s : Segment}

/-- A segment without a mark in front begins with its event. -/
theorem firstDay_eq (h : ofEvents g events = .ok l) (hs : s ∈ l.segments)
    (hmark : s.continuesBefore = false) : s.firstDay = g.ord s.event.startDate := by
  obtain ⟨p, lane, hp, rfl⟩ := (mem_segments_iff h).mp hs
  have hbegins : p.begins = true := by simpa [Segment.ofPiece] using hmark
  rw [Segment.firstDay_ofPiece]
  exact ((partOf_of_assigned hp).begins_iff.mp hbegins).2

/-- A segment without a mark behind ends with its event. -/
theorem lastDay_eq (h : ofEvents g events = .ok l) (hs : s ∈ l.segments)
    (hmark : s.continuesAfter = false) : s.lastDay = g.ord s.event.lastDay := by
  obtain ⟨p, lane, hp, rfl⟩ := (mem_segments_iff h).mp hs
  have hpart := partOf_of_assigned hp
  have hends : p.ends = true := by simpa [Segment.ofPiece] using hmark
  have hstop := hpart.ends_iff.mp hends
  rw [Segment.lastDay_ofPiece hpart.row_eq]
  show p.stop - 1 = g.ord p.owner.lastDay
  omega

/-- The day of the grid at a row and a column is found. -/
theorem dayAt_eq (h : ofEvents g events = .ok l) {d : Date} (hd : g.contains d = true)
    {row col : Int} (hplace : 7 * row + col = g.ord d) : l.dayAt row col = d.plain := by
  have hnonneg := (Grid.contains_iff.mp hd).1
  simp only [dayAt, hplace]
  rw [if_neg (Int.not_lt.mpr hnonneg), getElem?_days h hd]
  rfl

/-- The dates at both ends of a segment tell what it covers. -/
theorem extends_of_ord (h : ofEvents g events = .ok l) (hs : s ∈ l.segments) {first last : Date}
    (hfirst : g.ord first = s.firstDay) (hlast : g.ord last = s.lastDay) :
    s.Extends g first last := by
  have hfits := fits_of_mem h hs
  refine ⟨Grid.date?_eq_some_iff.mpr hfirst, Grid.date?_eq_some_iff.mpr hlast, fun d => ?_,
    fun hmark => ?_, fun hmark => ?_, fun hmark => ?_, fun hmark => ?_⟩
  · rw [hfits.covers_iff, ← hfirst, ← hlast, Grid.ord_le_ord, Grid.ord_le_ord]
  · exact Grid.ord_inj (hfirst.trans (firstDay_eq h hs hmark))
  · rw [Segment.firstDay, hfits.before hmark, Int.add_zero] at hfirst
    have hcol := g.col_ord first
    rw [hfirst, Grid.col] at hcol
    exact ⟨Grid.date?_eq_some_iff.mpr hfirst, by omega⟩
  · exact Grid.ord_inj (hlast.trans (lastDay_eq h hs hmark))
  · rw [Segment.lastDay, hfits.after hmark, Int.add_sub_assoc] at hlast
    have hcol := g.col_ord last
    rw [hlast, Grid.col] at hcol
    exact ⟨Grid.date?_eq_some_iff.mpr hlast, by omega⟩

/-- The first and the last day of a segment are days of the grid. -/
theorem exists_ends (h : ofEvents g events = .ok l) (hs : s ∈ l.segments) :
    ∃ first last, g.contains first = true ∧ g.ord first = s.firstDay ∧
      g.contains last = true ∧ g.ord last = s.lastDay := by
  have hfits := fits_of_mem h hs
  have hnonneg := hfits.firstDay_nonneg
  have hordered := hfits.firstDay_le
  have hend : s.lastDay < g.days := by
    have hlt := hfits.lastDay_lt
    rw [rows_eq h] at hlt
    rw [Grid.days]
    omega
  obtain ⟨first, hfirst, hfirstDay⟩ := Grid.exists_date hnonneg (Int.lt_of_le_of_lt hordered hend)
  obtain ⟨last, hlast, hlastDay⟩ := Grid.exists_date (Int.le_trans hnonneg hordered) hend
  exact ⟨first, last, hfirst, hfirstDay, hlast, hlastDay⟩

/-- The line of a segment names its first and its last day, both of which are found. -/
theorem segmentLine_names_days (h : ofEvents g events = .ok l) (hs : s ∈ l.segments) :
    ∃ first last text text', s.Extends g first last ∧
      first.IsNamed text ∧ last.IsNamed text' ∧
      l.dayAt s.row s.colStart = text ∧ l.dayAt s.row (s.colEnd - 1) = text' ∧
      text ≠ "?" ∧ text' ≠ "?" ∧
      l.segmentLine s = "week " ++ rightAligned (s.row + 1) ++ "  " ++ text ++ " - "
        ++ text' ++ "  lane " ++ Text.natText s.lane ++ "  " ++ s.event.title
        ++ (if s.continuesBefore then "  (continued)" else "")
        ++ (if s.continuesAfter then "  (continues)" else "") := by
  obtain ⟨first, last, hfirst, hfirstDay, hlast, hlastDay⟩ := exists_ends h hs
  have hstart : l.dayAt s.row s.colStart = first.plain := dayAt_eq h hfirst hfirstDay.symm
  have hstop : l.dayAt s.row (s.colEnd - 1) = last.plain := by
    refine dayAt_eq h hlast ?_
    rw [hlastDay, Segment.lastDay, Int.add_sub_assoc]
  refine ⟨first, last, _, _, extends_of_ord h hs hfirstDay hlastDay, first.isNamed_plain,
    last.isNamed_plain, hstart, hstop, first.isNamed_plain.ne_unknown,
    last.isNamed_plain.ne_unknown, ?_⟩
  unfold segmentLine
  rw [hstart, hstop]

end Layout

/-- The third week of a trip begins on the sixteenth of March and ends on the seventeenth. -/
theorem Sample.third_week {g : Grid} (hg : Grid.ofYear? 2025 = some g) :
    ⟨trip, 0, 77, 79, false, true⟩ ∈ piecesOf g (plan.filter Event.isBar) ∧
      g.date? 77 = some (march 16) ∧ trip.lastDay = march 17 ∧
      g.contains (march 16) = true ∧ g.contains (march 17) = true := by
  cases hg
  decide

/-- The last segment of a trip is named from Sunday the sixteenth of March, where it is carried on,
to Monday the seventeenth, where the trip ends. -/
theorem Layout.segmentLine_names_days_sample :
    ∃ g l s, Grid.ofYear? 2025 = some g ∧ ofEvents g Sample.plan = .ok l ∧ s ∈ l.segments ∧
      s.Extends g (Sample.march 16) (Sample.march 17) ∧
      l.dayAt s.row s.colStart = "Sun Mar 16" ∧ l.dayAt s.row (s.colEnd - 1) = "Mon Mar 17" ∧
      l.segmentLine s = "week 12  Sun Mar 16 - Mon Mar 17  lane " ++ Text.natText s.lane
        ++ "  Trip  (continued)" := by
  obtain ⟨g, l, hg, hl, -⟩ := Sample.exists_layout
  obtain ⟨hpiece, hsunday, hend, hcontains, hcontains'⟩ := Sample.third_week hg
  obtain ⟨lane, hassigned⟩ := exists_mem_assigned hpiece
  have hs := (mem_segments_iff hl).mpr ⟨_, lane, hassigned, rfl⟩
  obtain ⟨first, last, text, text', hextends, -, -, hstart, hstop, -, -, hline⟩ :=
    segmentLine_names_days hl hs
  have hfirst : first = Sample.march 16 :=
    Option.some.inj ((hextends.sunday rfl).1.symm.trans hsunday)
  have hlast : last = Sample.march 17 := (hextends.ends rfl).trans hend
  subst hfirst hlast
  have htext : text = "Sun Mar 16" := by
    have hplace := Grid.date?_eq_some_iff.mp hextends.first_at
    rw [← hstart, dayAt_eq hl hcontains hplace.symm]
    decide +kernel
  have htext' : text' = "Mon Mar 17" := by
    have hplace := Grid.date?_eq_some_iff.mp hextends.last_at
    rw [← hstop, dayAt_eq hl hcontains' ((Int.add_sub_assoc ..).symm.trans hplace.symm)]
    decide +kernel
  subst htext htext'
  have hweek : rightAligned (Grid.row 77 + 1) = "12" := by decide +kernel
  refine ⟨g, l, _, hg, hl, hs, hextends, hstart, hstop, hline.trans ?_⟩
  simp [Segment.ofPiece, hweek, Event.title, Sample.trip, String.append_assoc]

end WallCalendar
