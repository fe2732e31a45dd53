import WallCalendar.Proofs.Layout.Order

/-!
Every layout is well formed.

A segment lies inside one week of the grid, and on a side where its event goes on it reaches the end
of the week. No two segments begin in one lane of one day, since they would meet there; so row,
first column and lane put them in strict order. The day list holds every day at its ordinal, and no
day keeps more lanes clear than the layout has.
-/

namespace WallCalendar

/-- A piece that does not begin its bar begins a week. -/
theorem Piece.PartOf.first_mod {p : Piece} {first stop : Int} (h : p.PartOf true first stop)
    (hbegins : p.begins = false) : p.first % 7 = 0 := by
  rcases h.first_aligned with heq | hmod
  · rw [h.begins_iff.mpr ⟨rfl, heq⟩] at hbegins
    cases hbegins
  · exact hmod

/-- A piece that does not end its bar ends a week. -/
theorem Piece.PartOf.stop_mod {p : Piece} {begins : Bool} {first stop : Int}
    (h : p.PartOf begins first stop) (hends : p.ends = false) : p.stop % 7 = 0 := by
  rcases h.stop_aligned with heq | hmod
  · rw [h.ends_iff.mpr heq] at hends
    cases hends
  · exact hmod

namespace Segment

/-- By row, then first column, then lane. -/
def Precedes (s t : Segment) : Prop :=
  s.row < t.row ∨ s.row = t.row ∧
    (s.colStart < t.colStart ∨ s.colStart = t.colStart ∧ s.lane < t.lane)

instance (s t : Segment) : Decidable (s.Precedes t) := inferInstanceAs (Decidable (_ ∨ _))

theorem compare_eq_lt_iff {s t : Segment} : compare s t = .lt ↔ s.Precedes t := by
  simp only [compare, Ordering.then_eq_lt, Int.compare_eq_lt, Nat.compare_eq_lt,
    Std.LawfulEqOrd.compare_eq_iff_eq, Precedes]

/-- A segment lies inside one of the first weeks, and it reaches the end of the week on a side where
its event goes on. -/
structure Fits (rows : Nat) (s : Segment) : Prop where
  row_nonneg : 0 ≤ s.row
  row_lt : s.row < rows
  colStart_nonneg : 0 ≤ s.colStart
  colStart_lt : s.colStart < s.colEnd
  colEnd_le : s.colEnd ≤ 7
  before : s.continuesBefore = true → s.colStart = 0
  after : s.continuesAfter = true → s.colEnd = 7

variable {rows : Nat} {s : Segment}

theorem Fits.firstDay_nonneg (h : s.Fits rows) : 0 ≤ s.firstDay := by
  obtain ⟨hrow, -, hcol, -⟩ := h
  rw [firstDay]
  omega

theorem Fits.firstDay_le (h : s.Fits rows) : s.firstDay ≤ s.lastDay := by
  have hlt := h.colStart_lt
  rw [firstDay, lastDay]
  omega

theorem Fits.lastDay_lt (h : s.Fits rows) : s.lastDay < 7 * rows := by
  obtain ⟨-, hrow, -, -, hcol, -⟩ := h
  rw [lastDay]
  omega

/-- A segment that fits covers the days from its first to its last. -/
theorem Fits.covers_iff (h : s.Fits rows) {ord : Int} :
    s.covers ord = true ↔ s.firstDay ≤ ord ∧ ord ≤ s.lastDay := by
  obtain ⟨-, -, hnonneg, -, hle, -⟩ := h
  rw [Segment.covers_iff, firstDay, lastDay, Grid.row, Grid.col]
  omega

end Segment

/-- What can be told from a layout alone about the places of its parts. -/
structure Layout.WellFormed (l : Layout) : Prop where
  /-- No two segments have the same row, first column and lane. -/
  ascending : l.segments.Pairwise Segment.Precedes
  fits : ∀ s ∈ l.segments, s.Fits l.rows
  lane_lt : ∀ s ∈ l.segments, s.lane < l.laneCount
  /-- There are days for all weeks. -/
  length_days : l.days.length = 7 * l.rows
  /-- Every day stands at its ordinal, and its row and its column tell the ordinal. -/
  placed : ∀ (i : Nat) (cell : DayCell), l.days[i]? = some cell →
    cell.ord = i ∧ cell.row * 7 + cell.col = i ∧ 0 ≤ cell.col ∧ cell.col < 7
  reserved_le : ∀ cell ∈ l.days, cell.reservedLanes ≤ l.laneCount

namespace Layout

variable {g : Grid} {events : List Event} {l : Layout} {s : Segment}

theorem rows_eq (h : ofEvents g events = .ok l) : l.rows = g.rows := by
  obtain ⟨-, rfl⟩ := ofEvents_eq_ok_iff.mp h
  rfl

theorem fits_of_mem (h : ofEvents g events = .ok l) (hs : s ∈ l.segments) : s.Fits l.rows := by
  obtain ⟨-, hnonneg, hlt⟩ := row_firstDay h hs
  have hcols := colStart_lt_colEnd h hs
  obtain ⟨p, lane, hp, rfl⟩ := (mem_segments_iff h).mp hs
  have hpart := partOf_of_assigned hp
  refine ⟨hnonneg, hlt, ?_, hcols, ?_, ?_, ?_⟩ <;>
    simp only [Segment.ofPiece, Grid.col, Bool.not_eq_true']
  · omega
  · omega
  · exact hpart.first_mod
  · intro hends
    have hstop := hpart.stop_mod hends
    omega

theorem reservedLanes_le (h : ofEvents g events = .ok l) {cell : DayCell} (hcell : cell ∈ l.days) :
    cell.reservedLanes ≤ l.laneCount := by
  rw [days_eq_map h] at hcell
  obtain ⟨d, -, rfl⟩ := List.mem_map.mp hcell
  refine (reservedAt_le_iff h).mpr fun s hs _ => ?_
  exact (laneCount_le_iff h).mp (Nat.le_refl _) s hs

/-- Every layout is well formed. -/
theorem wellFormed_of_ofEvents (h : ofEvents g events = .ok l) : l.WellFormed where
  ascending := (pairwise_compare h).imp Segment.compare_eq_lt_iff.mp
  fits s hs := fits_of_mem h hs
  lane_lt := (laneCount_le_iff h).mp (Nat.le_refl _)
  length_days := by
    rw [days_eq_map h, List.length_map, Grid.dates, List.length_ofFn, rows_eq h, Grid.days]
  placed i cell hcell := by
    rw [days_eq_map h, List.getElem?_map, Option.map_eq_some_iff] at hcell
    obtain ⟨d, hd, rfl⟩ := hcell
    have hord := Grid.ord_of_getElem?_dates hd
    simp only [cell, Grid.row, Grid.col]
    omega
  reserved_le cell hcell := reservedLanes_le h hcell

/-- The layout of two trips and a talk is well formed, and the segments of both trips over the tenth
of March fit in their week. -/
theorem wellFormed_of_ofEvents_sample :
    ∃ g l, Grid.ofYear? 2025 = some g ∧ ofEvents g Sample.plan = .ok l ∧ l.WellFormed ∧
      l.cover (g.ord (Sample.march 10)) = 2 ∧
      ∀ s ∈ l.segments, s.covers (g.ord (Sample.march 10)) = true → s.Fits l.rows := by
  obtain ⟨g, l, hg, hl, -⟩ := Sample.exists_layout
  have hwell := wellFormed_of_ofEvents hl
  refine ⟨g, l, hg, hl, hwell, ?_, fun s hs _ => hwell.fits s hs⟩
  rw [cover_eq hl]
  cases hg
  decide

end Layout

end WallCalendar
