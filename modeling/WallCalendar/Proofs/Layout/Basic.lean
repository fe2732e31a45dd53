import WallCalendar.Layout.Basic
import WallCalendar.Proofs.DayStack
import WallCalendar.Proofs.Except
import WallCalendar.Proofs.Grid
import WallCalendar.Proofs.Lane.Assignment

/-!
What a layout consists of.

Events can be laid out just when the grid shows the first and the last day of each: after that check
nothing can fail, since the sweep of an arena of bars never stops and every stacked event finds its
day. The segments of the layout are then the pieces of the bars with their lanes, and the cell of a
day holds the stacked events that start on it.
-/

namespace WallCalendar

/-- The grid shows the first and the last day of an event. -/
def Grid.Shows (g : Grid) (e : Event) : Prop :=
  g.contains e.startDate = true ∧ g.contains e.lastDay = true

instance (g : Grid) (e : Event) : Decidable (g.Shows e) := inferInstanceAs (Decidable (_ ∧ _))

/-! ### Segments -/

namespace Segment

/-- The segment of a piece in a lane. -/
def ofPiece (x : Piece × Nat) : Segment where
  event := x.1.owner
  row := Grid.row x.1.first
  colStart := Grid.col x.1.first
  colEnd := Grid.col (x.1.stop - 1) + 1
  lane := x.2
  continuesBefore := !x.1.begins
  continuesAfter := !x.1.ends

/-- Whether a segment lies over the day `ord`. -/
def covers (s : Segment) (ord : Int) : Bool :=
  decide (s.row = Grid.row ord ∧ s.colStart ≤ Grid.col ord ∧ Grid.col ord < s.colEnd)

theorem covers_iff {s : Segment} {ord : Int} : s.covers ord = true ↔
    s.row = Grid.row ord ∧ s.colStart ≤ Grid.col ord ∧ Grid.col ord < s.colEnd :=
  decide_eq_true_iff

/-- The ordinal of the first day covered. -/
def firstDay (s : Segment) : Int := 7 * s.row + s.colStart

/-- The ordinal of the last day covered. -/
def lastDay (s : Segment) : Int := 7 * s.row + s.colEnd - 1

variable {p : Piece} {lane : Nat} {ord : Int}

theorem firstDay_ofPiece (p : Piece) (lane : Nat) : (ofPiece (p, lane)).firstDay = p.first := by
  simp only [firstDay, ofPiece, Grid.row, Grid.col]; omega

theorem lastDay_ofPiece (h : Grid.row p.first = Grid.row (p.stop - 1)) :
    (ofPiece (p, lane)).lastDay = p.stop - 1 := by
  simp only [lastDay, ofPiece, Grid.col]
  rw [h, Grid.row]
  omega

/-- A piece inside one week covers the same days as its segment. -/
theorem covers_ofPiece (h : Grid.row p.first = Grid.row (p.stop - 1)) :
    (ofPiece (p, lane)).covers ord = p.covers ord := by
  simp only [covers, Piece.covers, ofPiece, Grid.row, Grid.col] at h ⊢
  congr 1
  exact propext ⟨by omega, by omega⟩

/-- The closing edge of a piece gives its segment. -/
theorem ofClose?_closing {events : Array Event} {arena : Arena} {place : Nat}
    (howner : events[p.index]? = some p.owner)
    (hopen : arena[place]? = some (p.opening (some lane))) :
    ofClose? events arena (p.closing place) = some (ofPiece (p, lane)) := by
  simp only [ofClose?, Piece.closing, Edge.closing]
  simp [hopen, howner, ofPiece, Piece.opening]

/-- Only closing edges give segments, one for each piece. -/
theorem filterMap_ofClose? (events : Array Event) (arena : Arena) (lane : Nat → Option Nat) :
    ∀ (ps : List Piece) (n : Nat),
      (∀ k p, ps[k]? = some p → events[p.index]? = some p.owner ∧
        arena[2 * (n + k)]? = some (p.opening (lane (2 * (n + k)))) ∧
        ∃ l, lane (2 * (n + k)) = some l) →
      (Piece.edges lane (2 * n) ps).filterMap (ofClose? events arena) =
        (ps.zipIdx n).map fun (p, k) => ofPiece (p, (lane (2 * k)).getD 0)
  | [], _, _ => rfl
  | p :: ps, n, h => by
      obtain ⟨howner, hopen, l, hl⟩ := h 0 p rfl
      have hopening : ofClose? events arena (p.opening (lane (2 * n))) = none := rfl
      rw [Nat.add_zero] at hopen hl
      have hclosing : ofClose? events arena (p.closing (2 * n)) = some (ofPiece (p, l)) :=
        ofClose?_closing howner (hl ▸ hopen)
      have hrec := filterMap_ofClose? events arena lane ps (n + 1) fun k q hk => by
        rw [Nat.add_right_comm, Nat.add_assoc]
        exact h (k + 1) q hk
      rw [Piece.edges, List.filterMap_cons_none hopening, List.filterMap_cons_some hclosing,
        List.zipIdx_cons, List.map_cons, show 2 * n + 2 = 2 * (n + 1) by omega, hrec]
      simp only [hl, Option.getD_some]

end Segment

variable {g : Grid} {events bars : List Event} {l : Layout}

theorem Segment.covers_of_assigned {p : Piece} {lane : Nat} {ord : Int}
    (h : (p, lane) ∈ assigned g bars) :
    (Segment.ofPiece (p, lane)).covers ord = p.covers ord :=
  Segment.covers_ofPiece (partOf_of_assigned h).row_eq

/-- The segments of bars are their pieces in the lanes that the sweep gives, sorted. -/
theorem segmentsOf_allocate (g : Grid) (bars : List Event) :
    Layout.segmentsOf bars.toArray (allocate bars.toArray (decompose g bars)).1.arena =
      ((assigned g bars).map Segment.ofPiece).mergeSort
        fun a b => (Segment.compare a b).isLE := by
  have hlist := Segment.filterMap_ofClose? bars.toArray
    (allocate bars.toArray (decompose g bars)).1.arena
    ((decompose g bars).laneOf? bars.toArray) (piecesOf g bars) 0 fun k p hk => by
      rw [Nat.zero_add, List.getElem?_toArray, arena_allocate_decompose, List.getElem?_toArray,
        Piece.getElem?_edges_even, hk, Nat.zero_add]
      exact ⟨(mem_piecesOf.mp (List.mem_of_getElem? hk)).1, rfl, exists_laneOf? hk⟩
  have htoList : (allocate bars.toArray (decompose g bars)).1.arena.toList =
      Piece.edges ((decompose g bars).laneOf? bars.toArray) (2 * 0) (piecesOf g bars) := by
    rw [arena_allocate_decompose]
  rw [Layout.segmentsOf, htoList, hlist, assigned, List.map_map]
  rfl

/-! ### When there is a layout -/

namespace Layout

theorem checkEvent_eq_ok_iff {e : Event} : checkEvent g e = .ok () ↔ g.Shows e := by
  unfold checkEvent checkDate Grid.Shows
  cases g.contains e.startDate <;> cases g.contains e.lastDay <;> simp [bind, Except.bind]

/-- The sweep of the pieces of a list of events. -/
def swept (g : Grid) (events : List Event) : Sweep :=
  (allocate events.toArray (decompose g events)).1

/-- The layout of events that the grid shows. -/
def drawn (g : Grid) (events : List Event) : Layout :=
  let bars := events.filter Event.isBar
  let stacked := Event.sort (events.filter (!·.isBar))
  let sweep := (allocate bars.toArray (decompose g bars)).1
  { year := g.year
    rows := g.rows
    laneCount := sweep.laneCount
    days := cells g sweep.reservedAt (g.dates.map fun d => stacked.filter (·.startDate = d))
    segments := segmentsOf bars.toArray sweep.arena }

/-- Every stacked event that the grid shows finds its day. -/
theorem popAll_dates (h : ∀ e ∈ events, g.Shows e) :
    (DayStack.ofEvents (events.filter (!·.isBar))).popAll g.dates =
      (g.dates.map fun d => (Event.sort (events.filter (!·.isBar))).filter (·.startDate = d),
        ⟨[]⟩) := by
  refine DayStack.popAll_of_forall_mem g.pairwise_dates (DayStack.ordered_ofEvents _) ?_
  intro e he
  have hmem := (Event.sort_perm _).mem_iff.mp he
  exact Grid.mem_dates.mpr (h e (List.mem_filter.mp hmem).1).1

/-- Events that the grid shows are placed, and nothing is left over. -/
theorem place_eq (h : ∀ e ∈ events, g.Shows e) : place g events = .ok (drawn g events) := by
  have hsweep : ∀ bars, allocate bars.toArray (decompose g bars) =
      ((allocate bars.toArray (decompose g bars)).1, none) :=
    fun bars => Prod.ext rfl (allocate_decompose_fault g bars)
  simp only [place, popAll_dates h]
  rw [hsweep]
  rfl

/-- Events can be laid out just when the grid shows all of them. -/
theorem ofEvents_eq_ok_iff :
    ofEvents g events = .ok l ↔ (∀ e ∈ events, g.Shows e) ∧ l = drawn g events := by
  have hcheck : events.forM (checkEvent g) = .ok () ↔ ∀ e ∈ events, g.Shows e := by
    simp only [forM_eq_ok_iff, checkEvent_eq_ok_iff]
  rw [← hcheck]
  unfold ofEvents
  cases hf : events.forM (checkEvent g) with
  | error e => simp [bind, Except.bind]
  | ok u =>
    rw [show (Except.ok u >>= fun _ => place g events) = place g events from rfl,
      place_eq (hcheck.mp hf)]
    simp [eq_comm]

/-- The segments of a layout are the pieces of its bars, in another order. -/
theorem perm_segments (h : ofEvents g events = .ok l) :
    l.segments.Perm ((assigned g (events.filter Event.isBar)).map Segment.ofPiece) := by
  obtain ⟨-, rfl⟩ := ofEvents_eq_ok_iff.mp h
  show (segmentsOf _ _).Perm _
  rw [segmentsOf_allocate]
  exact List.mergeSort_perm ..

/-- Every segment is a piece of a bar, in its lane. -/
theorem mem_segments_iff (h : ofEvents g events = .ok l) {s : Segment} : s ∈ l.segments ↔
    ∃ p lane, (p, lane) ∈ assigned g (events.filter Event.isBar) ∧
      s = Segment.ofPiece (p, lane) := by
  simp only [(perm_segments h).mem_iff, List.mem_map, Prod.exists, eq_comm]

/-- The cell of a date. -/
def cell (g : Grid) (events : List Event) (d : Date) : DayCell where
  ord := g.ord d
  date := d
  row := Grid.row (g.ord d)
  col := Grid.col (g.ord d)
  label := DayCell.labelOf (g.ord d) d
  inYear := d.year == g.year
  reservedLanes := (swept g (events.filter Event.isBar)).reservedAt (g.ord d)
  events := (Event.sort (events.filter (!·.isBar))).filter (·.startDate = d)

/-- A layout has one cell for each date of its grid. -/
theorem days_eq_map (h : ofEvents g events = .ok l) : l.days = g.dates.map (cell g events) := by
  obtain ⟨-, rfl⟩ := ofEvents_eq_ok_iff.mp h
  have hzip : ∀ f : Date → List Event,
      g.dates.zip (g.dates.map f) = g.dates.map fun d => (d, f d) := fun f => by
    conv => enter [1, 1]; rw [← List.map_id g.dates]
    exact List.zip_map'
  refine List.ext_getElem? fun i => ?_
  simp only [drawn, cells, hzip, List.getElem?_map, List.getElem?_zipIdx, Nat.zero_add]
  cases hd : g.dates[i]? with
  | none => rfl
  | some d => simp only [Option.map_some, cell, swept, Grid.ord_of_getElem?_dates hd]

/-- The cell of a date that the grid shows stands at its ordinal. -/
theorem getElem?_days (h : ofEvents g events = .ok l) {d : Date} (hd : g.contains d = true) :
    l.days[(g.ord d).toNat]? = some (cell g events d) := by
  rw [days_eq_map h, List.getElem?_map, Grid.getElem?_dates_ord hd]; rfl

end Layout

/-! ### A sample -/

namespace Sample

/-- A day of March 2025. The eighth is a Saturday. -/
def march (day : Nat) (h : (Date.ofCivil? ⟨2025, 3, day⟩).isSome := by decide) : Date :=
  (Date.ofCivil? ⟨2025, 3, day⟩).get h

/-- Ten whole days, which lie in three weeks. -/
def trip : Event := ⟨⟨"Trip", none, none, none, []⟩, .days (march 8) (march 18)⟩

/-- An hour of one day. -/
def talk : Event :=
  ⟨⟨"Talk", none, none, none, []⟩,
    .moments ⟨march 10, (TimeOfDay.ofClock? 10 0 0 0).get (by decide)⟩
      ⟨march 10, (TimeOfDay.ofClock? 11 0 0 0).get (by decide)⟩⟩

/-- The trip twice and the talk between. -/
def plan : List Event := [trip, talk, trip]

theorem exists_layout :
    ∃ g l, Grid.ofYear? 2025 = some g ∧ Layout.ofEvents g plan = .ok l ∧
      g.contains (march 10) = true := by
  refine ⟨_, _, rfl, Layout.ofEvents_eq_ok_iff.mpr ⟨?_, rfl⟩, ?_⟩ <;> decide

end Sample

end WallCalendar
