import WallCalendar.Proofs.Layout.Basic

/-!
Every event is drawn on its own days and on no other.

Over the cell of a day lie the segments of the bars that take that day, one for each; in the cell
stand the other events that start on it, in order. A segment is marked as carried over on a side
just when its event also takes the next day on that side.
-/

namespace WallCalendar

/-- Whether an event is drawn on the day `ord` of a grid. -/
def Event.occupies (g : Grid) (e : Event) (ord : Int) : Bool :=
  decide (g.ord e.startDate ≤ ord ∧ ord ≤ g.ord e.lastDay)

theorem Event.occupies_iff {g : Grid} {e : Event} {ord : Int} :
    e.occupies g ord = true ↔ g.ord e.startDate ≤ ord ∧ ord ≤ g.ord e.lastDay :=
  decide_eq_true_iff

namespace Layout

variable {g : Grid} {events : List Event} {l : Layout}

theorem occupies_ord {e : Event} {d : Date} :
    e.occupies g (g.ord d) = decide (e.startDate ≤ d ∧ d ≤ e.lastDay) := by
  simp only [Event.occupies, Date.le_iff, Grid.ord]
  congr 1
  exact propext ⟨by omega, by omega⟩

/-- The segments over a day belong to the bars that take it. -/
theorem perm_events_of_covers (h : ofEvents g events = .ok l) (ord : Int) :
    ((l.segments.filter (·.covers ord)).map (·.event)).Perm
      (events.filter fun e => e.isBar && e.occupies g ord) := by
  have hcovers : ∀ x ∈ assigned g (events.filter Event.isBar),
      (Segment.ofPiece x).covers ord = x.1.covers ord := by
    rintro ⟨p, lane⟩ hx
    exact Segment.covers_of_assigned hx
  have howners : (((assigned g (events.filter Event.isBar)).map Segment.ofPiece).filter
      (·.covers ord)).map (·.event) = events.filter fun e => e.isBar && e.occupies g ord := by
    calc (((assigned g (events.filter Event.isBar)).map Segment.ofPiece).filter
          (·.covers ord)).map (·.event)
        = ((assigned g (events.filter Event.isBar)).filter
            fun x => (Segment.ofPiece x).covers ord).map (fun x => x.1.owner) := by
          rw [List.filter_map, List.map_map]; rfl
      _ = ((assigned g (events.filter Event.isBar)).filter
            fun x => x.1.covers ord).map (fun x => x.1.owner) := by
          rw [List.filter_congr hcovers]
      _ = ((piecesOf g (events.filter Event.isBar)).filter (·.covers ord)).map Piece.owner := by
          rw [← map_fst_assigned, List.filter_map, List.map_map]; rfl
      _ = (events.filter Event.isBar).filter (·.occupies g ord) := filter_covers_piecesOf ..
      _ = events.filter fun e => e.isBar && e.occupies g ord := by
          rw [List.filter_filter]
          exact List.filter_congr fun e _ => Bool.and_comm ..
  rw [← howners]
  exact ((perm_segments h).filter _).map _

/-- The marks of a segment say whether its event takes the day before or the day after. -/
theorem marks_iff (h : ofEvents g events = .ok l) {s : Segment} (hs : s ∈ l.segments) :
    (s.continuesBefore = true ↔ s.event.occupies g (s.firstDay - 1) = true) ∧
      (s.continuesAfter = true ↔ s.event.occupies g (s.lastDay + 1) = true) := by
  obtain ⟨p, lane, hp, rfl⟩ := (mem_segments_iff h).mp hs
  have hpart := partOf_of_assigned hp
  have hfirst := hpart.first_le
  have hstop := hpart.stop_le
  have hne := hpart.nonempty
  have hbegins : p.begins = false ↔ p.first ≠ g.ord p.owner.startDate := by
    rw [← Bool.not_eq_true, hpart.begins_iff]
    simp
  have hends : p.ends = false ↔ p.stop ≠ g.ord p.owner.lastDay + 1 := by
    rw [← Bool.not_eq_true, hpart.ends_iff]
  rw [Segment.firstDay_ofPiece, Segment.lastDay_ofPiece hpart.row_eq]
  simp only [Segment.ofPiece, Bool.not_eq_true', hbegins, hends, Event.occupies_iff]
  exact ⟨⟨by omega, by omega⟩, ⟨by omega, by omega⟩⟩

/-- Bars lie over their own days, other events stand in the cell of their first day, and segments
are marked on the sides where their events go on. -/
theorem drawn_on_own_days (h : ofEvents g events = .ok l) :
    (∀ d, g.contains d = true →
      ((l.segments.filter (·.covers (g.ord d))).map (·.event)).Perm
        (events.filter fun e => e.isBar && decide (e.startDate ≤ d ∧ d ≤ e.lastDay)) ∧
      ∃ cell, l.days[(g.ord d).toNat]? = some cell ∧ cell.ord = g.ord d ∧ cell.date = d ∧
        cell.events.Perm (events.filter fun e => !e.isBar && decide (e.startDate = d)) ∧
        cell.events.Pairwise fun a b => (Event.compare a b).isLE) ∧
    ∀ s ∈ l.segments,
      (s.continuesBefore = true ↔ s.event.occupies g (s.firstDay - 1) = true) ∧
      (s.continuesAfter = true ↔ s.event.occupies g (s.lastDay + 1) = true) := by
  refine ⟨?_, fun s hs => marks_iff h hs⟩
  intro d hd
  refine ⟨?_, _, getElem?_days h hd, rfl, rfl, ?_, ?_⟩
  · have hperm := perm_events_of_covers h (g.ord d)
    simpa only [occupies_ord] using hperm
  · have hperm := (Event.sort_perm (events.filter (!·.isBar))).filter (·.startDate = d)
    rw [List.filter_filter] at hperm
    refine hperm.trans (List.Perm.of_eq ?_)
    exact List.filter_congr fun e _ => Bool.and_comm ..
  · exact (Event.pairwise_sort _).filter _

/-- Two trips lie over the tenth of March and the talk stands in its cell. -/
theorem drawn_on_own_days_sample :
    ∃ g l, ofEvents g Sample.plan = .ok l ∧ g.contains (Sample.march 10) = true ∧
      ((l.segments.filter (·.covers (g.ord (Sample.march 10)))).map (·.event)).Perm
        [Sample.trip, Sample.trip] ∧
      ∃ cell, l.days[(g.ord (Sample.march 10)).toNat]? = some cell ∧
        cell.events.Perm [Sample.talk] := by
  obtain ⟨g, l, -, hl, hd⟩ := Sample.exists_layout
  obtain ⟨hbars, cell, hcell, -, -, hevents, -⟩ := (drawn_on_own_days hl).1 _ hd
  refine ⟨g, l, hl, hd, ?_, cell, hcell, ?_⟩
  · exact hbars.trans (List.Perm.of_eq (by decide))
  · exact hevents.trans (List.Perm.of_eq (by decide))

end Layout

end WallCalendar
