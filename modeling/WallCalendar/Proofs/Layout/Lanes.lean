import Mathlib.Data.Finset.Lattice.Fold
import Mathlib.Data.List.Perm.Subperm
import Mathlib.Order.Lattice.Nat
import WallCalendar.Proofs.Layout.Coverage

/-!
Segments that meet lie in different lanes, and no lane is wasted.

Pieces that share a day never share a lane, so the segments over a day need as many lanes as there
are. First fit takes no more: a segment lies below the number of segments over its first day. Hence
a week uses as many lanes as segments lie over its busiest day, and the layout as many as its
busiest week.
-/

namespace WallCalendar

namespace Segment

/-- Both segments lie over some day. -/
def Meets (s t : Segment) : Prop :=
  s.row = t.row ∧ s.colStart < t.colEnd ∧ t.colStart < s.colEnd

theorem Meets.symm {s t : Segment} (h : s.Meets t) : t.Meets s := ⟨h.1.symm, h.2.2, h.2.1⟩

theorem meets_of_covers {s t : Segment} {ord : Int} (hs : s.covers ord = true)
    (ht : t.covers ord = true) : s.Meets t := by
  rw [covers_iff] at hs ht
  exact ⟨hs.1.trans ht.1.symm, by omega, by omega⟩

end Segment

namespace Layout

variable {g : Grid} {events : List Event} {l : Layout}

/-- Two pieces of which the segments meet cover some day in common. -/
theorem exists_covers_of_meets {bars : List Event} {p q : Piece} {i j : Nat}
    (hp : p ∈ piecesOf g bars) (hq : q ∈ piecesOf g bars)
    (h : (Segment.ofPiece (p, i)).Meets (Segment.ofPiece (q, j))) :
    ∃ ord, p.covers ord = true ∧ q.covers ord = true := by
  have hpp := partOf_of_mem_piecesOf hp
  have hqp := partOf_of_mem_piecesOf hq
  have hprow := hpp.row_eq
  have hqrow := hqp.row_eq
  have hpne := hpp.nonempty
  have hqne := hqp.nonempty
  obtain ⟨hrow, hlt, hlt'⟩ := h
  simp only [Segment.ofPiece, Grid.row, Grid.col] at *
  refine ⟨max p.first q.first, ?_, ?_⟩ <;> rw [Piece.covers_iff] <;> omega

/-- Segments that meet have different lanes. -/
theorem pairwise_segments (h : ofEvents g events = .ok l) :
    l.segments.Pairwise fun s t => s.Meets t → s.lane ≠ t.lane := by
  have hsymm : ∀ {s t : Segment}, (s.Meets t → s.lane ≠ t.lane) → t.Meets s → t.lane ≠ s.lane :=
    fun hst hts => (hst hts.symm).symm
  refine (List.Perm.pairwise_iff hsymm (perm_segments h)).mpr (List.pairwise_map.mpr ?_)
  have hnodup : (assigned g (events.filter Event.isBar)).Pairwise fun x y => x.1 ≠ y.1 := by
    have hpieces := nodup_piecesOf g (events.filter Event.isBar)
    rw [← map_fst_assigned] at hpieces
    exact List.pairwise_map.mp hpieces
  refine hnodup.imp_of_mem ?_
  rintro ⟨p, i⟩ ⟨q, j⟩ hp hq hne hmeets
  obtain ⟨ord, hpo, hqo⟩ := exists_covers_of_meets (mem_piecesOf_of_assigned hp)
    (mem_piecesOf_of_assigned hq) hmeets
  exact assigned_lane_ne hp hq hne hpo hqo

/-- Pieces that share a day get different lanes in every linked arena. The arena of a list of bars
is one, so segments that meet have different lanes in every layout. -/
theorem lanes_apart :
    (∀ (events : Array Event) (arena : Arena), arena.Linked →
      (allocate events arena).2 = none ∧
      ∀ {o c o' c' : Nat} {first stop first' stop' : Int},
        arena.Spans o c first stop → arena.Spans o' c' first' stop' → c ≠ c' →
        first < stop' → first' < stop →
        ∃ lane lane', (allocate events arena).1.laneOf? o = some lane ∧
          (allocate events arena).1.laneOf? o' = some lane' ∧ lane ≠ lane') ∧
    (∀ g bars, (decompose g bars).Linked) ∧
    ∀ g events l, ofEvents g events = .ok l →
      l.segments.Pairwise fun s t => s.row = t.row → s.colStart < t.colEnd →
        t.colStart < s.colEnd → s.lane ≠ t.lane := by
  refine ⟨?_, linked_decompose, ?_⟩
  · intro events arena h
    refine ⟨by rw [Sweep.allocate_eq h], ?_⟩
    intro o c o' c' first stop first' stop' hs hs' hne hlt hlt'
    obtain ⟨lane, hlane⟩ := h.exists_lane hs
    obtain ⟨lane', hlane'⟩ := h.exists_lane hs'
    refine ⟨lane, lane', hlane, hlane', ?_⟩
    have hlanes := @Arena.Linked.lane_ne events _ _ _ _ h _ _ _ _ _ hs hs' hne hlt hlt'
    rw [hlane, hlane'] at hlanes
    exact fun heq => hlanes (congrArg some heq)
  · intro g events l h
    exact (pairwise_segments h).imp fun hst hrow hlt hlt' => hst ⟨hrow, hlt, hlt'⟩

/-- The first pieces of two equal trips share a day. -/
theorem lanes_apart_sample :
    ∃ g l, ofEvents g Sample.plan = .ok l ∧
      (l.segments.Pairwise fun s t => s.row = t.row → s.colStart < t.colEnd →
        t.colStart < s.colEnd → s.lane ≠ t.lane) ∧
      (decompose g [Sample.trip, Sample.trip]).Spans 0 1 69 70 ∧
      (decompose g [Sample.trip, Sample.trip]).Spans 6 7 69 70 ∧
      ∃ lane lane',
        (allocate #[Sample.trip, Sample.trip]
          (decompose g [Sample.trip, Sample.trip])).1.laneOf? 0 = some lane ∧
        (allocate #[Sample.trip, Sample.trip]
          (decompose g [Sample.trip, Sample.trip])).1.laneOf? 6 = some lane' ∧
        lane ≠ lane' := by
  obtain ⟨g, l, hg, hl, -⟩ := Sample.exists_layout
  have hfirst : (decompose g [Sample.trip, Sample.trip]).Spans 0 1 69 70 := by
    cases hg
    exact ⟨_, _, rfl, rfl, rfl, rfl, rfl⟩
  have hsecond : (decompose g [Sample.trip, Sample.trip]).Spans 6 7 69 70 := by
    cases hg
    exact ⟨_, _, rfl, rfl, rfl, rfl, rfl⟩
  refine ⟨g, l, hl, lanes_apart.2.2 g _ l hl, hfirst, hsecond, ?_⟩
  exact (lanes_apart.1 _ _ (lanes_apart.2.1 g _)).2 hfirst hsecond (by decide) (by decide)
    (by decide)

/-! ### No lane is wasted -/

/-- The number of segments over the day `ord`. -/
def cover (l : Layout) (ord : Int) : Nat := l.segments.countP (·.covers ord)

/-- The number of lanes used in a row: one more than the largest, or none. -/
def lanesIn (l : Layout) (row : Int) : Nat :=
  (l.segments.filter (·.row = row)).toFinset.sup (·.lane + 1)

theorem lanesIn_le_iff {row : Int} {n : Nat} :
    l.lanesIn row ≤ n ↔ ∀ s ∈ l.segments, s.row = row → s.lane < n := by
  simp only [lanesIn, Finset.sup_le_iff, List.mem_toFinset, List.mem_filter, decide_eq_true_eq,
    and_imp, Nat.succ_le_iff]

theorem cover_eq_length {ord : Int} :
    l.cover ord = ((l.segments.filter (·.covers ord)).map (·.lane)).length := by
  rw [List.length_map, cover, List.countP_eq_length_filter]

/-- Over a day lie as many segments as there are bars that take it. -/
theorem cover_eq (h : ofEvents g events = .ok l) (ord : Int) :
    l.cover ord = events.countP fun e => e.isBar && e.occupies g ord := by
  have hlen := (perm_events_of_covers h ord).length_eq
  rwa [List.length_map, ← List.countP_eq_length_filter, ← List.countP_eq_length_filter] at hlen

/-- The segments over a day fit below any bound of their lanes. -/
theorem cover_le (h : ofEvents g events = .ok l) {ord : Int} {n : Nat}
    (hn : ∀ s ∈ l.segments, s.covers ord = true → s.lane < n) : l.cover ord ≤ n := by
  have hnodup : ((l.segments.filter (·.covers ord)).map (·.lane)).Nodup := by
    refine List.pairwise_map.mpr (((pairwise_segments h).filter _).imp_of_mem ?_)
    intro s t hs ht hst
    exact hst (Segment.meets_of_covers (List.mem_filter.mp hs).2 (List.mem_filter.mp ht).2)
  have hsub : (l.segments.filter (·.covers ord)).map (·.lane) ⊆ List.range n := by
    intro lane hlane
    obtain ⟨s, hs, rfl⟩ := List.mem_map.mp hlane
    obtain ⟨hs, hcovers⟩ := List.mem_filter.mp hs
    exact List.mem_range.mpr (hn s hs hcovers)
  have hlen := hnodup.length_le_of_subset hsub
  rwa [List.length_range, ← cover_eq_length] at hlen

/-- A segment lies below the number of segments over its first day. -/
theorem lane_lt_cover (h : ofEvents g events = .ok l) {s : Segment} (hs : s ∈ l.segments) :
    s.lane < l.cover s.firstDay := by
  obtain ⟨p, lane, hp, rfl⟩ := (mem_segments_iff h).mp hs
  have hmem : ∀ {q m}, (q, m) ∈ assigned g (events.filter Event.isBar) →
      q.covers p.first = true →
      m ∈ (l.segments.filter (·.covers p.first)).map (·.lane) := by
    intro q m hq hcovers
    refine List.mem_map.mpr ⟨Segment.ofPiece (q, m), List.mem_filter.mpr ⟨?_, ?_⟩, rfl⟩
    · exact (mem_segments_iff h).mpr ⟨q, m, hq, rfl⟩
    · rwa [Segment.covers_of_assigned hq]
  have hsub : List.range (lane + 1) ⊆ (l.segments.filter (·.covers p.first)).map (·.lane) := by
    intro m hm
    rcases Nat.lt_succ_iff_lt_or_eq.mp (List.mem_range.mp hm) with hlt | rfl
    · obtain ⟨q, hq, -, hcovers⟩ := (assigned_least hp).2 m hlt
      exact hmem hq hcovers
    · have hne := (partOf_of_assigned hp).nonempty
      exact hmem hp (Piece.covers_iff.mpr ⟨Int.le_refl _, hne⟩)
  have hlen := List.nodup_range.length_le_of_subset hsub
  rw [List.length_range, ← cover_eq_length] at hlen
  rw [Segment.firstDay_ofPiece]
  exact hlen

theorem row_firstDay (h : ofEvents g events = .ok l) {s : Segment} (hs : s ∈ l.segments) :
    Grid.row s.firstDay = s.row ∧ 0 ≤ s.row ∧ s.row < l.rows := by
  obtain ⟨p, lane, hp, rfl⟩ := (mem_segments_iff h).mp hs
  obtain ⟨hshows, rfl⟩ := ofEvents_eq_ok_iff.mp h
  have howner := List.mem_of_getElem? (mem_piecesOf.mp (mem_piecesOf_of_assigned hp)).1
  obtain ⟨hstart, hlast⟩ := hshows p.owner (List.mem_filter.mp howner).1
  have hfirst := (Grid.contains_iff.mp hstart).1
  have hend := (Grid.contains_iff.mp hlast).2
  have hpart := partOf_of_assigned hp
  have hle := hpart.first_le
  have hlt := hpart.nonempty
  have hstop := hpart.stop_le
  rw [Segment.firstDay_ofPiece]
  rw [Grid.days] at hend
  refine ⟨rfl, ?_, ?_⟩
  · show 0 ≤ p.first / 7
    omega
  · show p.first / 7 < (g.rows : Int)
    omega

theorem laneCount_le_iff (h : ofEvents g events = .ok l) {n : Nat} :
    l.laneCount ≤ n ↔ ∀ s ∈ l.segments, s.lane < n := by
  have hsegments : (∀ s ∈ l.segments, s.lane < n) ↔
      ∀ p lane, (p, lane) ∈ assigned g (events.filter Event.isBar) → lane < n := by
    simp only [(perm_segments h).mem_iff, List.forall_mem_map, Prod.forall, Segment.ofPiece]
  obtain ⟨-, rfl⟩ := ofEvents_eq_ok_iff.mp h
  rw [hsegments]
  exact laneCount_decompose_le_iff

/-- The day `ord` is one of the seven of its row. -/
theorem cover_le_sup (l : Layout) (ord : Int) :
    l.cover ord ≤ (Finset.range 7).sup fun col => l.cover (7 * Grid.row ord + col) := by
  have hcol : (ord % 7).toNat ∈ Finset.range 7 := by
    rw [Finset.mem_range]
    omega
  have hord : 7 * Grid.row ord + ((ord % 7).toNat : Int) = ord := by
    rw [Grid.row]
    omega
  have hle := Finset.le_sup (f := fun col : Nat => l.cover (7 * Grid.row ord + col)) hcol
  simpa only [hord] using hle

/-- A row uses as many lanes as its busiest day needs, and the layout as its busiest row. -/
theorem lanes_least (h : ofEvents g events = .ok l) :
    (∀ row : Int, l.lanesIn row = (Finset.range 7).sup fun col => l.cover (7 * row + col)) ∧
    (∀ s ∈ l.segments, s.lane < l.cover s.firstDay) ∧
    l.laneCount = (Finset.range l.rows).sup fun row => l.lanesIn row := by
  refine ⟨?_, fun s hs => lane_lt_cover h hs, ?_⟩
  · intro row
    apply le_antisymm
    · rw [lanesIn_le_iff]
      rintro s hs rfl
      have hlt := lane_lt_cover h hs
      have hle := l.cover_le_sup s.firstDay
      rw [(row_firstDay h hs).1] at hle
      exact Nat.lt_of_lt_of_le hlt hle
    · refine Finset.sup_le fun col hcol => cover_le h fun s hs hcovers => ?_
      have hrow : s.row = row := by
        have hcol := Finset.mem_range.mp hcol
        rw [(Segment.covers_iff.mp hcovers).1, Grid.row]
        omega
      exact lanesIn_le_iff.mp le_rfl s hs hrow
  · refine eq_of_forall_ge_iff fun n => ?_
    simp only [laneCount_le_iff h, Finset.sup_le_iff, Finset.mem_range, lanesIn_le_iff]
    constructor
    · intro hall row _ s hs _
      exact hall s hs
    · intro hall s hs
      obtain ⟨-, hnonneg, hlt⟩ := row_firstDay h hs
      exact hall s.row.toNat (by omega) s hs (by omega)

/-- The week from the ninth to the fifteenth of March needs two lanes for its two trips. -/
theorem lanes_least_sample :
    ∃ g l, ofEvents g Sample.plan = .ok l ∧ l.lanesIn 10 = 2 ∧
      (∀ s ∈ l.segments, s.lane < l.cover s.firstDay) ∧
      l.laneCount = (Finset.range l.rows).sup fun row => l.lanesIn row := by
  obtain ⟨g, l, hg, hl, -⟩ := Sample.exists_layout
  refine ⟨g, l, hl, ?_, (lanes_least hl).2⟩
  rw [(lanes_least hl).1 10]
  simp only [cover_eq hl]
  cases hg
  decide

end Layout

end WallCalendar
