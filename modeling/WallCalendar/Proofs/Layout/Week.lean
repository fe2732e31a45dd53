import WallCalendar.Proofs.Layout.Order

/-!
A week is drawn from the events that meet it, and from nothing else.

Every piece lies in one week, so the pieces that cover the first day of a piece lie in its week too,
and no lane is carried over from one week to the next. Events that do not meet a week can therefore
be put last, where they give no piece of the week a number, and exchanged for any others that do not
meet it.
-/

namespace WallCalendar

/-- Whether an event is drawn on some day of the week `row`. -/
def Event.meetsWeek (g : Grid) (row : Int) (e : Event) : Bool :=
  decide (Grid.row (g.ord e.startDate) ≤ row ∧ row ≤ Grid.row (g.ord e.lastDay))

theorem Event.meetsWeek_iff {g : Grid} {row : Int} {e : Event} :
    e.meetsWeek g row = true ↔ ∃ ord, Grid.row ord = row ∧ e.occupies g ord = true := by
  have hle : e.startDate.number ≤ e.lastDay.number := e.span.startDate_le_lastDay
  rw [meetsWeek, decide_eq_true_iff]
  simp only [occupies_iff, Grid.row, Grid.ord]
  constructor
  · rintro ⟨hfirst, hlast⟩
    refine ⟨max (e.startDate.number - g.start.number) (7 * row), ?_, ?_⟩ <;> omega
  · rintro ⟨ord, rfl, hfirst, hlast⟩
    omega

/-! ### Pieces of a week -/

section Pieces

variable {g : Grid} {row : Int} {zs ws ws' : List Event} {p q : Piece}

/-- A piece that covers a day lies in the week of that day. -/
theorem row_eq_of_covers (hq : q ∈ piecesOf g zs) {ord : Int} (h : q.covers ord = true) :
    Grid.row q.first = Grid.row ord := by
  have hrow := (partOf_of_mem_piecesOf hq).row_eq
  obtain ⟨hle, hlt⟩ := Piece.covers_iff.mp h
  simp only [Grid.row] at hrow ⊢
  omega

/-- The owner of a piece meets the week of the piece. -/
theorem meetsWeek_owner (hp : p ∈ piecesOf g zs) :
    p.owner.meetsWeek g (Grid.row p.first) = true := by
  have hpart := partOf_of_mem_piecesOf hp
  have hlt := hpart.nonempty
  have hstop := hpart.stop_le
  exact Event.meetsWeek_iff.mpr
    ⟨p.first, rfl, Event.occupies_iff.mpr ⟨hpart.first_le, by omega⟩⟩

theorem mem_piecesOf_append_left (hp : p ∈ piecesOf g zs) : p ∈ piecesOf g (zs ++ ws) := by
  obtain ⟨hget, hpiece⟩ := mem_piecesOf.mp hp
  refine mem_piecesOf.mpr ⟨?_, hpiece⟩
  rw [List.getElem?_append_left (List.getElem?_eq_some_iff.mp hget).1, hget]

/-- Bars put last that do not meet a week have no piece in it. -/
theorem mem_piecesOf_of_append (hws : ∀ e ∈ ws, e.meetsWeek g row = false)
    (hp : p ∈ piecesOf g (zs ++ ws)) (hrow : Grid.row p.first = row) : p ∈ piecesOf g zs := by
  obtain ⟨hget, hpiece⟩ := mem_piecesOf.mp hp
  refine mem_piecesOf.mpr ⟨?_, hpiece⟩
  by_cases hlt : p.index < zs.length
  · rwa [List.getElem?_append_left hlt] at hget
  · rw [List.getElem?_append_right (Nat.not_lt.mp hlt)] at hget
    have hmeets := meetsWeek_owner hp
    rw [hrow, hws _ (List.mem_of_getElem? hget)] at hmeets
    cases hmeets

/-- The pieces of a week match themselves, whatever else is put last. -/
theorem matching_week (hws : ∀ e ∈ ws, e.meetsWeek g row = false)
    (hws' : ∀ e ∈ ws', e.meetsWeek g row = false) :
    Matching g (zs ++ ws) (zs ++ ws') fun p p' =>
      p = p' ∧ p ∈ piecesOf g zs ∧ Grid.row p.first = row where
  mem_left hp := mem_piecesOf_append_left hp.2.1
  mem_right hp := hp.1 ▸ mem_piecesOf_append_left hp.2.1
  first_eq hp := hp.1 ▸ rfl
  stop_eq hp := hp.1 ▸ rfl
  before_iff hp hq := by rw [hp.1, hq.1]
  left_total hp hq hcovers := by
    have hrow := (row_eq_of_covers hq hcovers).trans hp.2.2
    exact ⟨_, rfl, mem_piecesOf_of_append hws hq hrow, hrow⟩
  right_total hp hq hcovers := by
    have hrow := (row_eq_of_covers hq hcovers).trans (hp.1 ▸ hp.2.2)
    exact ⟨_, rfl, mem_piecesOf_of_append hws' hq hrow, hrow⟩

/-- The pieces of a week keep their lanes, whatever else is put last. -/
theorem mem_assigned_week (hws : ∀ e ∈ ws, e.meetsWeek g row = false)
    (hws' : ∀ e ∈ ws', e.meetsWeek g row = false) (hrow : Grid.row p.first = row) {lane : Nat}
    (hp : (p, lane) ∈ assigned g (zs ++ ws)) : (p, lane) ∈ assigned g (zs ++ ws') :=
  (matching_week hws hws').same_lane
    ⟨rfl, mem_piecesOf_of_append hws (mem_piecesOf_of_assigned hp) hrow, hrow⟩ hp

end Pieces

/-- Sorting and choosing can be exchanged. -/
theorem Event.filter_sort (p : Event → Bool) (events : List Event) :
    (sort events).filter p = sort (events.filter p) :=
  List.Perm.eq_of_pairwise (fun _ _ _ _ => before_antisymm) ((pairwise_sort events).filter p)
    (pairwise_sort _) (((sort_perm events).filter p).trans (sort_perm _).symm)

/-- Eight whole days, the last of which is the first day of the trip. -/
def Sample.fair : Event := ⟨⟨"Fair", none, none, none, []⟩, .days (march 1) (march 9)⟩

/-! ### Rows of a layout -/

namespace Layout

variable {g : Grid} {xs ys zs ws ws' : List Event} {l m : Layout} {row : Int}

/-- The segments of a row do not depend on events that do not meet its week. -/
theorem mem_segments_week (hl : ofEvents g (zs ++ ws) = .ok l) (hm : ofEvents g (zs ++ ws') = .ok m)
    (hws : ∀ e ∈ ws, e.meetsWeek g row = false) (hws' : ∀ e ∈ ws', e.meetsWeek g row = false)
    {s : Segment} (hrow : s.row = row) (hs : s ∈ l.segments) : s ∈ m.segments := by
  obtain ⟨p, lane, hp, rfl⟩ := (mem_segments_iff hl).mp hs
  rw [List.filter_append] at hp
  refine (mem_segments_iff hm).mpr ⟨p, lane, ?_, rfl⟩
  rw [List.filter_append]
  exact mem_assigned_week (fun e he => hws e (List.mem_filter.mp he).1)
    (fun e he => hws' e (List.mem_filter.mp he).1) hrow hp

theorem filter_segments_week (hl : ofEvents g (zs ++ ws) = .ok l)
    (hm : ofEvents g (zs ++ ws') = .ok m) (hws : ∀ e ∈ ws, e.meetsWeek g row = false)
    (hws' : ∀ e ∈ ws', e.meetsWeek g row = false) :
    l.segments.filter (·.row = row) = m.segments.filter (·.row = row) := by
  refine Segment.eq_of_mem_iff ((pairwise_compare hl).filter _) ((pairwise_compare hm).filter _) ?_
  intro s
  simp only [List.mem_filter, decide_eq_true_eq]
  constructor
  · rintro ⟨hs, hrow⟩
    exact ⟨mem_segments_week hl hm hws hws' hrow hs, hrow⟩
  · rintro ⟨hs, hrow⟩
    exact ⟨mem_segments_week hm hl hws' hws hrow hs, hrow⟩

/-- The events stacked on a day of a week meet that week. -/
theorem stacked_week (zs : List Event) (hws : ∀ e ∈ ws, e.meetsWeek g row = false) {d : Date}
    (hd : Grid.row (g.ord d) = row) :
    (Event.sort ((zs ++ ws).filter (!·.isBar))).filter (·.startDate = d) =
      (Event.sort (zs.filter (!·.isBar))).filter (·.startDate = d) := by
  have hnone : (ws.filter (!·.isBar)).filter (·.startDate = d) = [] := by
    refine List.filter_eq_nil_iff.mpr fun e he => ?_
    have hnot := hws e (List.mem_filter.mp he).1
    simp only [decide_eq_true_eq]
    rintro rfl
    have hle : e.startDate.number ≤ e.lastDay.number := e.span.startDate_le_lastDay
    have hmeets := Event.meetsWeek_iff.mpr
      ⟨_, hd, Event.occupies_iff.mpr ⟨Int.le_refl _, by simp only [Grid.ord]; omega⟩⟩
    rw [hnot] at hmeets
    cases hmeets
  rw [Event.filter_sort, Event.filter_sort, List.filter_append, List.filter_append, hnone,
    List.append_nil]

/-- The cells of a row do not depend on events that do not meet its week. -/
theorem cell_week (hl : ofEvents g (zs ++ ws) = .ok l) (hm : ofEvents g (zs ++ ws') = .ok m)
    (hws : ∀ e ∈ ws, e.meetsWeek g row = false) (hws' : ∀ e ∈ ws', e.meetsWeek g row = false)
    {d : Date} (hd : Grid.row (g.ord d) = row) : cell g (zs ++ ws) d = cell g (zs ++ ws') d := by
  have hcovers : ∀ {s : Segment}, s.covers (g.ord d) = true → s.row = row := fun h =>
    (Segment.covers_iff.mp h).1.trans hd
  have hreserved : (cell g (zs ++ ws) d).reservedLanes = (cell g (zs ++ ws') d).reservedLanes := by
    refine eq_of_forall_ge_iff fun n => (reservedAt_le_iff hl).trans (Iff.trans ?_
      (reservedAt_le_iff hm).symm)
    constructor
    · intro hall s hs hcov
      exact hall s (mem_segments_week hm hl hws' hws (hcovers hcov) hs) hcov
    · intro hall s hs hcov
      exact hall s (mem_segments_week hl hm hws hws' (hcovers hcov) hs) hcov
  have hstacked := (stacked_week zs hws hd).trans (stacked_week zs hws' hd).symm
  simp only [cell, DayCell.mk.injEq, true_and] at hreserved ⊢
  exact ⟨hreserved, hstacked⟩

/-- Layouts of one grid agree on a week as soon as the same events meet it. -/
theorem week_independent (hl : ofEvents g xs = .ok l) (hm : ofEvents g ys = .ok m)
    (h : (xs.filter (·.meetsWeek g row)).Perm (ys.filter (·.meetsWeek g row))) :
    l.segments.filter (·.row = row) = m.segments.filter (·.row = row) ∧
      l.days.filter (·.row = row) = m.days.filter (·.row = row) := by
  -- put last what does not meet the week
  have hxs := (List.filter_append_perm (·.meetsWeek g row) xs).symm
  have hys := ((List.filter_append_perm (·.meetsWeek g row) ys).symm).trans (h.symm.append_right _)
  have hl' := ofEvents_of_perm hl hxs
  have hm' := ofEvents_of_perm hm hys
  have hlast : ∀ {zs : List Event}, ∀ e ∈ zs.filter (fun e => !e.meetsWeek g row),
      e.meetsWeek g row = false := fun e he => by simpa using (List.mem_filter.mp he).2
  refine ⟨filter_segments_week hl' hm' hlast hlast, ?_⟩
  rw [days_eq_map hl', days_eq_map hm', List.filter_map, List.filter_map]
  refine List.map_congr_left fun d hd => ?_
  exact cell_week hl' hm' hlast hlast (by simpa [cell] using (List.mem_filter.mp hd).2)

/-- A fair in the two weeks before, which is drawn over the first day of the trips, changes nothing
in the week from the ninth to the fifteenth of March. -/
theorem week_independent_sample :
    ∃ g l m, ofEvents g Sample.plan = .ok l ∧ ofEvents g (Sample.fair :: Sample.plan) = .ok m ∧
      l.segments.filter (·.row = 10) = m.segments.filter (·.row = 10) ∧
      l.days.filter (·.row = 10) = m.days.filter (·.row = 10) := by
  obtain ⟨g, l, hg, hl, -⟩ := Sample.exists_layout
  have hm : ofEvents g (Sample.fair :: Sample.plan) =
      .ok (drawn g (Sample.fair :: Sample.plan)) := by
    refine ofEvents_eq_ok_iff.mpr ⟨?_, rfl⟩
    cases hg
    decide
  refine ⟨g, l, _, hl, hm, week_independent hl hm (List.Perm.of_eq ?_)⟩
  cases hg
  decide

end Layout

end WallCalendar
