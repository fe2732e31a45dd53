import WallCalendar.Proofs.Lane.Assignment
import WallCalendar.Proofs.Layout.Basic

/-!
How the events of a list tile their arena.

The edges of an event stand in one run of the arena, an opening and a closing edge in turn, one pair
for each week that the event touches. The pairs share out the days of the event: the first begins
with it, the last ends with it, and in between each ends at the week boundary where the next begins.
The boundaries are those that a walk from week to week passes before the event is over, so an event
that ends with a week gets no empty piece after it. None of this asks for the days to be in the
grid: rows and boundaries go on below ordinal zero.
-/

namespace WallCalendar

/-! ### The walk along the week boundaries -/

/-- The walk that begins at the boundary `cut` and goes on by a week as long as it is before `stop`:
it passes the boundaries listed and ends. -/
inductive Passes (stop : Int) : Int → List Int → Prop where
  | ends {cut : Int} : stop ≤ cut → Passes stop cut []
  | goesOn {cut : Int} {cuts : List Int} : cut < stop → Passes stop (cut + 7) cuts →
      Passes stop cut (cut :: cuts)

variable {first stop : Int}

theorem row_boundary (first : Int) :
    Grid.row (7 * (Grid.row first + 1)) = Grid.row first + 1 := by
  simp only [Grid.row]; omega

/-- The cuts inside an event are the boundaries passed from the end of its first week on. -/
theorem passes_weekCuts (first stop : Int) :
    Passes stop (7 * (Grid.row first + 1)) (weekCuts first stop) := by
  -- induction on the number of boundaries still to come
  obtain ⟨n, hn⟩ : ∃ n : Nat, (Grid.row (stop - 1) - Grid.row first).toNat = n := ⟨_, rfl⟩
  induction n generalizing first with
  | zero =>
    have hle : Grid.row (stop - 1) ≤ Grid.row first := by omega
    rw [weekCuts_eq_nil hle]
    refine .ends ?_
    simp only [Grid.row] at hle ⊢
    omega
  | succ n ih =>
    have hlt : Grid.row first < Grid.row (stop - 1) := by omega
    have hrest := ih (7 * (Grid.row first + 1)) (by rw [row_boundary]; omega)
    rw [row_boundary, Int.mul_add 7 (Grid.row first + 1), Int.mul_one] at hrest
    rw [weekCuts_eq_cons hlt]
    refine .goesOn ?_ hrest
    simp only [Grid.row] at hlt ⊢
    omega

/-! ### The bounds of the pieces -/

/-- Where the piece with number `j` begins and the one before it ends, of the pieces from `first` to
`stop`: at a week boundary, or at an end of the whole. -/
def weekBound (first stop : Int) (j : Nat) : Int := max first (min stop (7 * (Grid.row first + j)))

theorem weekBound_zero (first stop : Int) : weekBound first stop 0 = first := by
  simp only [weekBound, Grid.row]; omega

theorem weekBound_inner {j : Nat} (hpos : 0 < j)
    (hj : Grid.row first + j ≤ Grid.row (stop - 1)) :
    weekBound first stop j = 7 * (Grid.row first + j) := by
  simp only [weekBound, Grid.row] at hj ⊢; omega

theorem weekBound_last {j : Nat} (h : first < stop)
    (hj : Grid.row (stop - 1) < Grid.row first + j) : weekBound first stop j = stop := by
  simp only [weekBound, Grid.row] at hj ⊢; omega

/-- The bounds after the first week are those of the days from its end on. -/
theorem weekBound_boundary (hlt : Grid.row first < Grid.row (stop - 1)) (j : Nat) :
    weekBound (7 * (Grid.row first + 1)) stop j = weekBound first stop (j + 1) := by
  simp only [weekBound, row_boundary, Int.natCast_add, Int.natCast_one]
  simp only [Grid.row] at hlt ⊢
  omega

theorem map_weekBound (first stop : Int) :
    (List.range (Grid.row (stop - 1) - Grid.row first).toNat).map
        (fun j => weekBound first stop (j + 1)) = weekCuts first stop := by
  refine List.map_congr_left fun j hj => ?_
  have hj := List.mem_range.mp hj
  rw [weekBound_inner (Nat.succ_pos j) (by omega)]
  omega

namespace Piece

variable {owner : Event} {index : Nat}

theorem length_cutAt : ∀ (cuts : List Int) (begins : Bool) (first stop : Int),
    (cutAt owner index begins first cuts stop).length = cuts.length + 1
  | [], _, _, _ => rfl
  | _ :: cuts, _, _, stop => by rw [cutAt, List.length_cons, length_cutAt cuts]; rfl

/-- The piece with number `j` lies in the week with number `j` of its event. -/
theorem getElem?_cutAt {j : Nat} : ∀ {first : Int} {begins : Bool}, first < stop →
    Grid.row first + j ≤ Grid.row (stop - 1) →
    (cutAt owner index begins first (weekCuts first stop) stop)[j]? =
      some ⟨owner, index, weekBound first stop j, weekBound first stop (j + 1),
        begins && decide (j = 0), decide (Grid.row first + j = Grid.row (stop - 1))⟩ := by
  induction j with
  | zero =>
    intro first begins h hj
    rw [weekBound_zero]
    by_cases hlt : Grid.row first < Grid.row (stop - 1)
    · -- the first week ends inside the event
      rw [weekCuts_eq_cons hlt, cutAt, List.getElem?_cons_zero,
        weekBound_inner Nat.one_pos (by omega)]
      simp [Int.ne_of_lt hlt]
    · have hrow : Grid.row first = Grid.row (stop - 1) := by omega
      rw [weekCuts_eq_nil (by omega), cutAt, List.getElem?_cons_zero, weekBound_last h (by omega)]
      simp [hrow]
  | succ j ih =>
    intro first begins h hj
    have hlt : Grid.row first < Grid.row (stop - 1) := by omega
    have hcut : 7 * (Grid.row first + 1) < stop := by
      simp only [Grid.row] at hlt ⊢; omega
    rw [weekCuts_eq_cons hlt, cutAt, List.getElem?_cons_succ,
      ih hcut (by rw [row_boundary]; omega), weekBound_boundary hlt, weekBound_boundary hlt,
      row_boundary]
    have hweeks : Grid.row first + 1 + (j : Int) = Grid.row first + ((j + 1 : Nat) : Int) := by
      omega
    simp [hweeks]

end Piece

/-! ### The run of an event -/

variable {g : Grid} {bars : List Event} {e : Event} {i : Nat}

/-- A bar has a piece for each week it touches. -/
theorem Event.length_pieces (g : Grid) (e : Event) (i : Nat) :
    ((e.pieces g i).length : Int) =
      Grid.row (g.ord e.lastDay) - Grid.row (g.ord e.startDate) + 1 := by
  have hlt := (e.cutByWeek g).first_lt_stop
  rw [Event.pieces, Piece.length_cutAt, weekCuts, List.length_map, List.length_range,
    Int.add_sub_cancel]
  simp only [Grid.row] at hlt ⊢
  omega

/-- The piece with number `j` of the bar at `i`. -/
def Event.pieceAt (g : Grid) (e : Event) (i j : Nat) : Piece where
  owner := e
  index := i
  first := weekBound (g.ord e.startDate) (g.ord e.lastDay + 1) j
  stop := weekBound (g.ord e.startDate) (g.ord e.lastDay + 1) (j + 1)
  begins := decide (j = 0)
  ends := decide (j + 1 = (e.pieces g i).length)

theorem Event.getElem?_pieces {j : Nat} (hj : j < (e.pieces g i).length) :
    (e.pieces g i)[j]? = some (e.pieceAt g i j) := by
  have hlength := e.length_pieces g i
  have hlast : (j + 1 = (e.pieces g i).length) ↔ Grid.row (g.ord e.startDate) + j =
      Grid.row (g.ord e.lastDay + 1 - 1) := by
    rw [Int.add_sub_cancel]; omega
  rw [Event.pieceAt, decide_eq_decide.mpr hlast, Event.pieces, Piece.getElem?_cutAt
    (e.cutByWeek g).first_lt_stop (by rw [Int.add_sub_cancel]; omega), Bool.true_and]

/-- Among the pieces of all bars, those of the bar at `i` stand in order from `m` on. -/
structure RunsFrom (g : Grid) (bars : List Event) (e : Event) (i m : Nat) : Prop where
  getElem? : ∀ j < (e.pieces g i).length, (piecesOf g bars)[m + j]? = some (e.pieceAt g i j)
  index_iff : ∀ {q p}, (piecesOf g bars)[q]? = some p →
    (p.index = i ↔ m ≤ q ∧ q < m + (e.pieces g i).length)

theorem exists_runsFrom (g : Grid) (h : bars[i]? = some e) : ∃ m, RunsFrom g bars e i m := by
  obtain ⟨front, back, heq, hfront, hback⟩ := exists_piecesOf_eq g h
  refine ⟨front.length, ?_, ?_⟩
  · intro j hj
    rw [heq, List.getElem?_append_right (Nat.le_add_right ..), Nat.add_sub_cancel_left,
      List.getElem?_append_left hj, Event.getElem?_pieces hj]
  · intro q p hq
    rw [heq] at hq
    rcases Nat.lt_or_ge q front.length with hlt | hge
    · rw [List.getElem?_append_left hlt] at hq
      have hindex := hfront p (List.mem_of_getElem? hq)
      omega
    · rw [List.getElem?_append_right hge] at hq
      rcases Nat.lt_or_ge (q - front.length) (e.pieces g i).length with hlt | hge'
      · rw [List.getElem?_append_left hlt] at hq
        have hindex := (Piece.partOf_cutAt (e.cutByWeek g) (List.mem_of_getElem? hq)).2.1
        omega
      · rw [List.getElem?_append_right hge'] at hq
        have hindex := hback p (List.mem_of_getElem? hq)
        omega

/-! ### Tiled arenas -/

namespace Arena

/-- The edges of the event at `index` tile the days from `first` to `last`: they stand from `place`
on, two for each of `count` pieces, of which the one with number `j` goes from `bound j` up to
`bound (j + 1)`. -/
structure Tiles (arena : Arena) (index : Nat) (first last : Int) (place count : Nat)
    (bound : Nat → Int) : Prop where
  /-- There is a piece for each week. -/
  count_eq : (count : Int) = Grid.row last - Grid.row first + 1
  /-- The event has no other edges. -/
  owned_iff : ∀ k, (∃ edge, arena[k]? = some edge ∧ edge.event = index) ↔
    place ≤ k ∧ k < place + 2 * count
  /-- A piece is opened, definitely for the first, and has no lane yet. -/
  opens : ∀ j < count,
    arena[place + 2 * j]? = some (.opening (bound j) index (decide (j = 0)))
  /-- It is closed by the next edge, definitely for the last. -/
  closes : ∀ j < count, arena[place + 2 * j + 1]? =
    some (.closing (bound (j + 1)) index (place + 2 * j) (decide (j + 1 = count)))
  bound_zero : bound 0 = first
  bound_count : bound count = last + 1
  aligned : ∀ j, 0 < j → j < count → bound j % 7 = 0
  nonempty : ∀ j < count, bound j < bound (j + 1)
  within_week : ∀ j < count, Grid.row (bound j) = Grid.row (bound (j + 1) - 1)
  /-- The bounds in between are those that the walk along the boundaries passes. -/
  passed : Passes (last + 1) (7 * (Grid.row first + 1))
    ((List.range (count - 1)).map fun j => bound (j + 1))

theorem event_of_cases {p : Piece} {edge : Edge} {k q : Nat}
    (h : k = 2 * q ∧ edge = p.opening none ∨ k = 2 * q + 1 ∧ edge = p.closing (2 * q)) :
    edge.event = p.index ∧ (k = 2 * q ∨ k = 2 * q + 1) := by
  rcases h with ⟨hk, rfl⟩ | ⟨hk, rfl⟩
  · exact ⟨rfl, .inl hk⟩
  · exact ⟨rfl, .inr hk⟩

/-- The edges of a bar are those of its pieces. -/
theorem owned_iff {m k : Nat} (h : RunsFrom g bars e i m) :
    (∃ edge, (decompose g bars)[k]? = some edge ∧ edge.event = i) ↔
      2 * m ≤ k ∧ k < 2 * m + 2 * (e.pieces g i).length := by
  constructor
  · rintro ⟨edge, hk, rfl⟩
    obtain ⟨q, p, hq, hcases⟩ := cases_of_getElem?_decompose hk
    obtain ⟨hindex, hplace⟩ := event_of_cases hcases
    have hrange := (h.index_iff hq).mp hindex.symm
    omega
  · rintro ⟨hle, hk⟩
    obtain ⟨j, rfl | rfl⟩ : ∃ j, k = 2 * (m + j) ∨ k = 2 * (m + j) + 1 :=
      ⟨k / 2 - m, by omega⟩
    · exact ⟨_, getElem?_decompose_even (h.getElem? j (by omega)), rfl⟩
    · exact ⟨_, getElem?_decompose_odd (h.getElem? j (by omega)), rfl⟩

/-- A bar whose pieces stand together tiles its days. -/
theorem tiles_of_runsFrom {m : Nat} (h : RunsFrom g bars e i m) :
    (decompose g bars).Tiles i (g.ord e.startDate) (g.ord e.lastDay) (2 * m)
      (e.pieces g i).length (weekBound (g.ord e.startDate) (g.ord e.lastDay + 1)) where
  count_eq := e.length_pieces g i
  owned_iff _ := owned_iff h
  opens j hj := by
    rw [← Nat.mul_add]
    exact getElem?_decompose_even (h.getElem? j hj)
  closes j hj := by
    rw [← Nat.mul_add]
    exact getElem?_decompose_odd (h.getElem? j hj)
  bound_zero := weekBound_zero ..
  bound_count := by
    have hlength := e.length_pieces g i
    exact weekBound_last (e.cutByWeek g).first_lt_stop (by rw [Int.add_sub_cancel]; omega)
  aligned j hpos hj := by
    have hlength := e.length_pieces g i
    rw [weekBound_inner hpos (by rw [Int.add_sub_cancel]; omega)]
    omega
  nonempty j hj := (partOf_of_mem_piecesOf (List.mem_of_getElem? (h.getElem? j hj))).nonempty
  within_week j hj := (partOf_of_mem_piecesOf (List.mem_of_getElem? (h.getElem? j hj))).row_eq
  passed := by
    have hlength := e.length_pieces g i
    have hpassed := passes_weekCuts (g.ord e.startDate) (g.ord e.lastDay + 1)
    rw [← map_weekBound, Int.add_sub_cancel] at hpassed
    rwa [show (e.pieces g i).length - 1 = (Grid.row (g.ord e.lastDay) -
      Grid.row (g.ord e.startDate)).toNat by omega]

/-- An arena holds the edges of its events and no others, and each event tiles its days. -/
theorem decompose_tiled (g : Grid) (events : List Event) :
    (∀ edge ∈ decompose g events, edge.event < events.length) ∧
    ∀ index e, events[index]? = some e → ∃ place count bound,
      (decompose g events).Tiles index (g.ord e.startDate) (g.ord e.lastDay) place count
        bound := by
  constructor
  · intro edge hedge
    obtain ⟨k, hk⟩ := Array.mem_iff_getElem?.mp hedge
    obtain ⟨q, p, hq, hcases⟩ := cases_of_getElem?_decompose hk
    rw [(event_of_cases hcases).1]
    exact (List.getElem?_eq_some_iff.mp (mem_piecesOf.mp (List.mem_of_getElem? hq)).1).1
  · intro index e h
    obtain ⟨m, hm⟩ := exists_runsFrom g h
    exact ⟨_, _, _, tiles_of_runsFrom hm⟩

/-- Ten days of March, seen from the grid of the next year: they begin on a Saturday, 295 days
before the grid, and touch three weeks. -/
theorem decompose_tiled_sample :
    ∃ g, Grid.ofYear? 2026 = some g ∧ Sample.plan[2]? = some Sample.trip ∧
      ∃ place count bound,
        (decompose g Sample.plan).Tiles 2 (-295) (-286) place count bound ∧ count = 3 := by
  refine ⟨_, rfl, rfl, ?_⟩
  obtain ⟨place, count, bound, h⟩ := (decompose_tiled _ Sample.plan).2 2 Sample.trip rfl
  exact ⟨place, count, bound, h, Int.ofNat.inj h.count_eq⟩

end Arena

end WallCalendar
