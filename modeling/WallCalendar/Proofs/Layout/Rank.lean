import WallCalendar.Proofs.Layout.Week

/-!
The lanes of pieces that begin on one day.

Such pieces take ascending lanes in the order in which they are opened: pieces carried over from the
week before come first, then they go as their events. On the first day of a week no other piece is
drawn, since every piece lies in one week, and the lanes taken are the lowest ones without a gap.

An event that is ahead of a carried-over event at the beginning of a week started no later, so it
was drawn a week before as well and was ahead then. From week to week the events ahead of an event
only grow fewer, and its lane never goes up.
-/

namespace WallCalendar

open Std Layout

variable {g : Grid} {bars : List Event} {p q : Piece} {l m : Nat} {ord : Int}

/-! ### Pieces that begin together -/

theorem Piece.PartOf.covers_first {begins : Bool} {first stop : Int}
    (h : p.PartOf begins first stop) : p.covers p.first = true :=
  Piece.covers_iff.mpr ⟨Int.le_refl _, h.nonempty⟩

/-- Of two pieces that begin together the one opened first has the lower lane. -/
theorem lane_lt_of_before (hp : (p, l) ∈ assigned g bars) (hq : (q, m) ∈ assigned g bars)
    (hfirst : p.first = q.first) (h : p.Before q) : l < m := by
  have hcovers := (partOf_of_assigned hp).covers_first
  rw [hfirst] at hcovers
  have hne : l ≠ m := (assigned_least hq).1 p l hp h hcovers
  by_contra hle
  -- the piece that keeps `p` out of the lane of `q` is in the way of `q` too
  obtain ⟨r, hr, hbefore, hcovers⟩ := (assigned_least hp).2 m (by omega)
  rw [hfirst] at hcovers
  exact (assigned_least hq).1 r m hr (hbefore.trans h) hcovers rfl

/-- Only pieces that begin with a week cover its first day. -/
theorem first_eq_of_covers (hq : q ∈ piecesOf g bars) (hord : ord % 7 = 0)
    (h : q.covers ord = true) : q.first = ord := by
  have hrow := row_eq_of_covers hq h
  have hle := (Piece.covers_iff.mp h).1
  simp only [Grid.row] at hrow
  omega

/-- Below a piece that begins with a week every lane is taken by one that begins with it. -/
theorem exists_before_of_lt (hp : (p, l) ∈ assigned g bars) (hfirst : p.first % 7 = 0)
    (hm : m < l) : ∃ q, (q, m) ∈ assigned g bars ∧ q.first = p.first ∧ q.Before p := by
  obtain ⟨q, hq, hbefore, hcovers⟩ := (assigned_least hp).2 m hm
  exact ⟨q, hq, first_eq_of_covers (mem_piecesOf_of_assigned hq) hfirst hcovers, hbefore⟩

/-! ### Edges that open together -/

/-- The edges where a piece begins on the day `ord`. -/
def Arena.openings (arena : Arena) (ord : Int) : List Edge :=
  arena.toList.filter fun e => e.isOpen && e.position == ord

/-- How the pieces that begin on one day are ranked: carried over from the week before first, then
as their events, then by the places of the events. -/
def Edge.rank (events : List Event) (a b : Edge) : Ordering :=
  (Ord.compare a.definite b.definite).then <|
  (Ord.compare events[a.event]? events[b.event]?).then <|
  Ord.compare a.event b.event

/-- The edges where a piece begins on the day `ord`, by rank. -/
def Arena.rankedOpenings (events : List Event) (arena : Arena) (ord : Int) : List Edge :=
  (arena.openings ord).mergeSort fun a b => (Edge.rank events a b).isLE

instance (events : List Event) : TransCmp (Edge.rank events) :=
  inferInstanceAs <| TransCmp <|
    compareLex (compareOn Edge.definite) <|
    compareLex (compareOn fun e : Edge => events[e.event]?) <|
    compareOn Edge.event

theorem Edge.event_eq_of_rank {events : List Event} {a b : Edge}
    (h : Edge.rank events a b = .eq) : a.event = b.event := by
  simp only [Edge.rank, Ordering.then_eq_eq] at h
  exact LawfulEqOrd.eq_of_compare h.2.2

/-- Ranks are the order in which pieces are opened. -/
theorem Piece.rank_opening (hp : p ∈ piecesOf g bars) (hq : q ∈ piecesOf g bars)
    (hfirst : p.first = q.first) (lane lane' : Option Nat) :
    Edge.rank bars (p.opening lane) (q.opening lane') = Piece.compare p q := by
  have howner : Ord.compare (some p.owner) (some q.owner) = Event.compare p.owner q.owner := rfl
  simp only [Edge.rank, opening, Piece.compare, (mem_piecesOf.mp hp).1, (mem_piecesOf.mp hq).1,
    howner, hfirst, ReflOrd.compare_self, Ordering.eq_then]

theorem Piece.filter_edges (lane : Nat → Option Nat) (ord : Int) : ∀ (ps : List Piece) (k : Nat),
    (edges lane (2 * k) ps).filter (fun e => e.isOpen && e.position == ord) =
      ((ps.zipIdx k).filter (·.1.first == ord)).map fun (p, k) => p.opening (lane (2 * k))
  | [], _ => rfl
  | p :: ps, k => by
      have ih := filter_edges lane ord ps (k + 1)
      have hclose : ((p.closing (2 * k)).isOpen && (p.closing (2 * k)).position == ord) = false :=
        rfl
      have hopen : ((p.opening (lane (2 * k))).isOpen &&
          (p.opening (lane (2 * k))).position == ord) = (p.first == ord) := rfl
      rw [edges, List.filter_cons, List.filter_cons, hclose, hopen, List.zipIdx_cons,
        List.filter_cons, show 2 * k + 2 = 2 * (k + 1) by omega, if_neg Bool.false_ne_true, ih]
      split <;> rfl

/-- The edges that open in a swept arena are those of the pieces, with their lanes. -/
theorem openings_swept (g : Grid) (bars : List Event) (ord : Int) :
    (swept g bars).arena.openings ord =
      ((assigned g bars).filter (·.1.first == ord)).map fun (p, l) => p.opening (some l) := by
  have hfilter := Piece.filter_edges ((decompose g bars).laneOf? bars.toArray) ord
    (piecesOf g bars) 0
  rw [Arena.openings, swept, arena_allocate_decompose, hfilter, assigned, List.filter_map,
    List.map_map]
  refine List.map_congr_left ?_
  rintro ⟨p, k⟩ hmem
  obtain ⟨l, hl⟩ := exists_laneOf?
    (List.mk_mem_zipIdx_iff_getElem?.mp (List.mem_of_mem_filter hmem))
  simp [hl]

theorem mem_openings_swept {e : Edge} : e ∈ (swept g bars).arena.openings ord ↔
    ∃ p l, (p, l) ∈ assigned g bars ∧ p.first = ord ∧ e = p.opening (some l) := by
  simp only [openings_swept, List.mem_map, List.mem_filter, beq_iff_eq, Prod.exists, and_assoc,
    @eq_comm _ _ e]

theorem exists_of_mem_swept {e : Edge} (h : e ∈ (swept g bars).arena) (hopen : e.isOpen = true) :
    ∃ p l, (p, l) ∈ assigned g bars ∧ e = p.opening (some l) := by
  have hmem : e ∈ (swept g bars).arena.openings e.position :=
    List.mem_filter.mpr ⟨Array.mem_toList_iff.mpr h, by simp [hopen]⟩
  obtain ⟨p, l, hp, -, he⟩ := mem_openings_swept.mp hmem
  exact ⟨p, l, hp, he⟩

theorem exists_opening_swept (hp : p ∈ piecesOf g bars) :
    ∃ l, p.opening (some l) ∈ (swept g bars).arena := by
  obtain ⟨l, hl⟩ := exists_mem_assigned hp
  have hmem := mem_openings_swept.mpr ⟨p, l, hl, rfl, rfl⟩
  exact ⟨l, Array.mem_toList_iff.mp (List.mem_of_mem_filter hmem)⟩

theorem length_openings_swept (g : Grid) (bars : List Event) (ord : Int) :
    ((swept g bars).arena.openings ord).length =
      ((piecesOf g bars).filter (·.first == ord)).length := by
  rw [openings_swept, List.length_map, ← map_fst_assigned, List.filter_map, List.length_map]
  rfl

/-- Of two edges that open together the one ranked first has the lower lane. -/
theorem lane_lt_of_rank (hp : (p, l) ∈ assigned g bars) (hq : (q, m) ∈ assigned g bars)
    (hfirst : p.first = q.first)
    (h : Edge.rank bars (p.opening (some l)) (q.opening (some m)) = .lt) : l < m := by
  rw [Piece.rank_opening (mem_piecesOf_of_assigned hp) (mem_piecesOf_of_assigned hq) hfirst] at h
  exact lane_lt_of_before hp hq hfirst h

/-- Different pieces that begin together belong to different events. -/
theorem pairwise_openings_swept (g : Grid) (bars : List Event) (ord : Int) :
    ((swept g bars).arena.openings ord).Pairwise fun a b => a.event ≠ b.event := by
  have hnodup : (assigned g bars).Pairwise fun a b => a.1 ≠ b.1 :=
    List.pairwise_map.mp ((map_fst_assigned g bars).symm ▸ nodup_piecesOf g bars)
  rw [openings_swept, List.pairwise_map]
  refine (hnodup.filter _).imp_of_mem ?_
  rintro ⟨p, l⟩ ⟨q, m⟩ hp hq hne hindex
  simp only [List.mem_filter, beq_iff_eq] at hp hq
  exact hne (eq_of_mem_piecesOf (mem_piecesOf_of_assigned hp.1) (mem_piecesOf_of_assigned hq.1)
    hindex (hp.2.trans hq.2.symm))

/-! ### The first day of a week -/

/-- A strictly ascending list that leaves out no smaller number counts from zero. -/
theorem eq_range_of_ascending {ls : List Nat} (hsorted : ls.Pairwise (· < ·))
    (hclosed : ∀ l ∈ ls, ∀ m < l, m ∈ ls) : ls = List.range ls.length := by
  -- the last number is the largest, so the others leave out no smaller number either
  induction ls using List.reverseRecOn with
  | nil => rfl
  | append_singleton ls l ih =>
    obtain ⟨hsorted, -, hlast⟩ := List.pairwise_append.mp hsorted
    have hlt : ∀ m ∈ ls, m < l := fun m hm => hlast m hm l (List.mem_singleton_self l)
    have hbelow : ∀ m < l, m ∈ ls := by
      intro m hm
      have hmem := hclosed l (by simp) m hm
      simpa [Nat.ne_of_lt hm] using hmem
    have hls := ih hsorted fun x hx m hm => hbelow m (Nat.lt_trans hm (hlt x hx))
    have hmem : ∀ m, m ∈ ls ↔ m < ls.length := fun m => by rw [hls]; simp
    have hlength : l = ls.length := by
      rcases Nat.lt_trichotomy l ls.length with h | h | h
      · exact absurd (hlt l ((hmem l).mpr h)) (Nat.lt_irrefl l)
      · exact h
      · exact absurd ((hmem _).mp (hbelow _ h)) (Nat.lt_irrefl _)
    rw [List.length_append, List.length_singleton, List.range_succ, ← hls, ← hlength]

theorem mem_rankedOpenings_swept {e : Edge} :
    e ∈ (swept g bars).arena.rankedOpenings bars ord ↔
      ∃ p l, (p, l) ∈ assigned g bars ∧ p.first = ord ∧ e = p.opening (some l) :=
  List.mem_mergeSort.trans mem_openings_swept

/-- By rank the lanes of edges that open together ascend. -/
theorem pairwise_rankedOpenings_swept (g : Grid) (bars : List Event) (ord : Int) :
    ((swept g bars).arena.rankedOpenings bars ord).Pairwise
      fun a b => a.lane.getD 0 < b.lane.getD 0 := by
  have hranked : ((swept g bars).arena.rankedOpenings bars ord).Pairwise
      fun a b => (Edge.rank bars a b).isLE = true := pairwise_mergeSort_isLE (Edge.rank bars) _
  have hevents : ((swept g bars).arena.rankedOpenings bars ord).Pairwise
      fun a b => a.event ≠ b.event :=
    (pairwise_openings_swept g bars ord).perm (List.mergeSort_perm _ _).symm Ne.symm
  refine (hranked.and hevents).imp_of_mem ?_
  rintro a b ha hb ⟨hle, hne⟩
  have hrank : Edge.rank bars a b = .lt := by
    cases h : Edge.rank bars a b with
    | lt => rfl
    | eq => exact absurd (Edge.event_eq_of_rank h) hne
    | gt => simp [h] at hle
  obtain ⟨p, l, hp, hpfirst, rfl⟩ := mem_rankedOpenings_swept.mp ha
  obtain ⟨q, m, hq, hqfirst, rfl⟩ := mem_rankedOpenings_swept.mp hb
  exact lane_lt_of_rank hp hq (hpfirst.trans hqfirst.symm) hrank

/-- The pieces that begin with a week have the lowest lanes, without a gap, by rank. -/
theorem map_lane_rankedOpenings (g : Grid) (bars : List Event) (hord : ord % 7 = 0) :
    ((swept g bars).arena.rankedOpenings bars ord).map Edge.lane =
      (List.range ((swept g bars).arena.openings ord).length).map some := by
  have hsome : ((swept g bars).arena.rankedOpenings bars ord).map Edge.lane =
      (((swept g bars).arena.rankedOpenings bars ord).map (·.lane.getD 0)).map some := by
    rw [List.map_map]
    refine List.map_congr_left ?_
    intro e he
    obtain ⟨p, l, -, -, rfl⟩ := mem_rankedOpenings_swept.mp he
    rfl
  have hrange := eq_range_of_ascending
    (List.pairwise_map.mpr (pairwise_rankedOpenings_swept g bars ord)) (by
      intro l hl m hm
      obtain ⟨e, he, rfl⟩ := List.mem_map.mp hl
      obtain ⟨p, l, hp, rfl, rfl⟩ := mem_rankedOpenings_swept.mp he
      obtain ⟨q, hq, hfirst, -⟩ := exists_before_of_lt hp hord hm
      exact List.mem_map.mpr ⟨_, mem_rankedOpenings_swept.mpr ⟨q, m, hq, hfirst, rfl⟩, rfl⟩)
  rw [hsome, hrange, List.length_map, Arena.rankedOpenings, List.length_mergeSort]

/-- Pieces that begin on one day take ascending lanes by rank, and those that begin with a week take
the lowest lanes without a gap. -/
theorem lanes_ascend_by_rank (g : Grid) (events : List Event) :
    (allocate events.toArray (decompose g events)).2 = none ∧
    (∀ e ∈ (swept g events).arena, e.isOpen = true → ∃ owner, events[e.event]? = some owner ∧
      (e.definite = true ↔ e.position = g.ord owner.startDate)) ∧
    (∀ a ∈ (swept g events).arena, ∀ b ∈ (swept g events).arena,
      a.isOpen = true → b.isOpen = true → a.position = b.position →
      Edge.rank events a b = .lt → ∃ l m, a.lane = some l ∧ b.lane = some m ∧ l < m) ∧
    ∀ ord : Int, ord % 7 = 0 →
      ((swept g events).arena.rankedOpenings events ord).map Edge.lane =
        (List.range ((swept g events).arena.openings ord).length).map some := by
  refine ⟨allocate_decompose_fault g events, ?_, ?_, ?_⟩
  · intro e he hopen
    obtain ⟨p, l, hp, rfl⟩ := exists_of_mem_swept he hopen
    refine ⟨p.owner, (mem_piecesOf.mp (mem_piecesOf_of_assigned hp)).1, ?_⟩
    exact (partOf_of_assigned hp).begins_iff.trans (by simp [Piece.opening])
  · intro a ha b hb haopen hbopen hposition hrank
    obtain ⟨p, l, hp, rfl⟩ := exists_of_mem_swept ha haopen
    obtain ⟨q, m, hq, rfl⟩ := exists_of_mem_swept hb hbopen
    exact ⟨l, m, rfl, rfl, lane_lt_of_rank hp hq hposition hrank⟩
  · intro ord hord
    exact map_lane_rankedOpenings g events hord

namespace Sample

/-- Days of two weeks. The course begins before the trip and ends before it. -/
def course : Event := ⟨⟨"Course", none, none, none, []⟩, .days (march 3) (march 13)⟩

/-- The course between two trips. -/
def carried : List Event := [trip, course, trip]

end Sample

/-- All three events are carried over into one week, the course ahead of the trips. -/
theorem lanes_ascend_by_rank_sample :
    ∃ g a b l m, Grid.ofYear? 2025 = some g ∧
      a ∈ (swept g Sample.carried).arena ∧ a.isOpen = true ∧ a.event = 1 ∧ a.position = 70 ∧
      b ∈ (swept g Sample.carried).arena ∧ b.isOpen = true ∧ b.event = 0 ∧ b.position = 70 ∧
      Edge.rank Sample.carried a b = .lt ∧ a.lane = some l ∧ b.lane = some m ∧ l < m ∧
      ((swept g Sample.carried).arena.rankedOpenings Sample.carried 70).map Edge.lane =
        [some 0, some 1, some 2] := by
  obtain ⟨g, -, hg, -, -⟩ := Sample.exists_layout
  obtain ⟨-, -, hlt, hlanes⟩ := lanes_ascend_by_rank g Sample.carried
  have hcourse : ⟨Sample.course, 1, 70, 74, false, true⟩ ∈ piecesOf g Sample.carried := by
    cases hg
    decide
  have htrip : ⟨Sample.trip, 0, 70, 77, false, false⟩ ∈ piecesOf g Sample.carried := by
    cases hg
    decide
  have hthree : ((piecesOf g Sample.carried).filter (·.first == 70)).length = 3 := by
    cases hg
    decide
  obtain ⟨l, ha⟩ := exists_opening_swept hcourse
  obtain ⟨m, hb⟩ := exists_opening_swept htrip
  have hrank : Edge.rank Sample.carried _ _ = .lt :=
    (Piece.rank_opening hcourse htrip rfl (some l) (some m)).trans (by decide)
  obtain ⟨l, m, hl, hm, hlm⟩ := hlt _ ha _ hb rfl rfl rfl hrank
  refine ⟨g, _, _, l, m, hg, ha, rfl, rfl, rfl, hb, rfl, rfl, rfl, hrank, hl, hm, hlm, ?_⟩
  rw [hlanes 70 rfl, length_openings_swept, hthree]
  rfl

/-! ### From one week to the next -/

/-- A bar has a piece on each of its days. -/
theorem exists_covers {e : Event} {index : Nat} (he : bars[index]? = some e)
    (hstart : g.ord e.startDate ≤ ord) (hlast : ord ≤ g.ord e.lastDay) :
    ∃ p ∈ piecesOf g bars, p.index = index ∧ p.owner = e ∧ p.covers ord = true := by
  have hfilter : ((e.pieces g index).filter (·.covers ord)).map Piece.owner = [e] := by
    rw [Event.pieces, Piece.filter_covers_cutAt (e.cutByWeek g), if_pos ⟨hstart, by omega⟩]
  obtain ⟨p, hp, rfl⟩ := List.mem_map.mp (hfilter ▸ List.mem_singleton_self e)
  obtain ⟨hpiece, hcovers⟩ := List.mem_filter.mp hp
  obtain ⟨-, rfl, -⟩ := Piece.partOf_cutAt (p.owner.cutByWeek g) hpiece
  exact ⟨p, mem_piecesOf.mpr ⟨he, hpiece⟩, rfl, rfl, hcovers⟩

/-- The pieces of one bar have one owner. -/
theorem owner_eq_of_index (hp : p ∈ piecesOf g bars) (hq : q ∈ piecesOf g bars)
    (hindex : p.index = q.index) : p.owner = q.owner := by
  have hpowner := (mem_piecesOf.mp hp).1
  rw [hindex, (mem_piecesOf.mp hq).1] at hpowner
  exact (Option.some.inj hpowner).symm

namespace Piece

/-- Whether the owner of `p` stands before that of `q`. -/
def Leads (p q : Piece) : Prop :=
  (Event.compare p.owner q.owner).then (Ord.compare p.index q.index) = .lt

theorem before_iff_of_first (hfirst : p.first = q.first) : p.Before q ↔
    p.begins = false ∧ q.begins = true ∨ p.begins = q.begins ∧ p.Leads q := by
  have hlt : Ord.compare false true = .lt := rfl
  have hgt : Ord.compare true false = .gt := rfl
  rw [Before, Piece.compare, hfirst, ReflOrd.compare_self, Ordering.eq_then, Leads]
  cases p.begins <;> cases q.begins <;> simp [hlt, hgt]

/-- The owner that stands first starts no later. -/
theorem Leads.ord_startDate_le (h : p.Leads q) (g : Grid) :
    g.ord p.owner.startDate ≤ g.ord q.owner.startDate := by
  have hle : Event.before p.owner q.owner = true :=
    Ordering.isLE_left_of_isLE_then (by rw [Leads] at h; rw [h]; rfl)
  have hdate := Date.le_iff.mp (Event.startDate_le_of_before hle)
  simp only [Grid.ord]
  omega

end Piece

theorem begins_iff_of_mem (hp : p ∈ piecesOf g bars) :
    p.begins = true ↔ p.first = g.ord p.owner.startDate :=
  (partOf_of_mem_piecesOf hp).begins_iff.trans (by simp)

/-- A piece that is opened before `p'` at the beginning of a week has an earlier piece of its bar
that was opened before the piece `p` of the week before. -/
theorem exists_before_last_week {p' q' : Piece} (hp : p ∈ piecesOf g bars)
    (hp' : p' ∈ piecesOf g bars) (hq' : q' ∈ piecesOf g bars) (hindex : p.index = p'.index)
    (hweek : p.first % 7 = 0) (hnext : p'.first = p.first + 7) (hfirst : q'.first = p'.first)
    (h : q'.Before p') :
    ∃ q ∈ piecesOf g bars, q.index = q'.index ∧ q.first = p.first ∧ q.Before p := by
  have howner := owner_eq_of_index hp hp' hindex
  have hpart := partOf_of_mem_piecesOf hp
  have hstart := hpart.first_le
  have hcarried : ¬ p'.begins = true := by
    rw [begins_iff_of_mem hp', ← howner]
    omega
  have hleads : q'.Leads p' := by
    rcases (Piece.before_iff_of_first hfirst).mp h with ⟨-, hbegins⟩ | ⟨-, hleads⟩
    · exact absurd hbegins hcarried
    · exact hleads
  have hstart' := hleads.ord_startDate_le g
  rw [← howner] at hstart'
  have hstop := (partOf_of_mem_piecesOf hq').stop_le
  have hnonempty := (partOf_of_mem_piecesOf hq').nonempty
  obtain ⟨q, hq, hqindex, hqowner, hcovers⟩ := exists_covers (mem_piecesOf.mp hq').1
    (hstart'.trans hstart) (by omega)
  have hqfirst := first_eq_of_covers hq hweek hcovers
  refine ⟨q, hq, hqindex, hqfirst, (Piece.before_iff_of_first hqfirst).mpr ?_⟩
  have hleads : q.Leads p := by
    rwa [Piece.Leads, hqowner, hqindex, howner, hindex]
  have hbegins : q.begins = true → p.begins = true := by
    rw [begins_iff_of_mem hq, begins_iff_of_mem hp, hqowner]
    omega
  cases hqb : q.begins with
  | true => exact .inr ⟨(hbegins hqb).symm, hleads⟩
  | false =>
    cases hpb : p.begins with
    | true => exact .inl ⟨rfl, rfl⟩
    | false => exact .inr ⟨rfl, hleads⟩

/-- The lane of a bar never goes up from one week to the next. -/
theorem assigned_lane_le : ∀ {l' : Nat} {p p' : Piece} {l : Nat}, (p, l) ∈ assigned g bars →
    (p', l') ∈ assigned g bars → p.index = p'.index → p.first % 7 = 0 →
    p'.first = p.first + 7 → l' ≤ l
  | 0, _, _, _, _, _, _, _, _ => Nat.zero_le _
  | k + 1, p, p', l, hp, hp', hindex, hweek, hnext => by
      -- the piece below `p'` was below `p` the week before, in a lane that was no lower
      obtain ⟨q', hq', hfirst, hbefore'⟩ := exists_before_of_lt hp' (by omega) (Nat.lt_succ_self k)
      obtain ⟨q, hq, hqindex, hqfirst, hbefore⟩ := exists_before_last_week
        (mem_piecesOf_of_assigned hp) (mem_piecesOf_of_assigned hp') (mem_piecesOf_of_assigned hq')
        hindex hweek hnext hfirst hbefore'
      obtain ⟨m, hq⟩ := exists_mem_assigned hq
      have hkm : k ≤ m := assigned_lane_le hq hq' hqindex (by omega) (by omega)
      have hml : m < l := lane_lt_of_before hq hp hqfirst hbefore
      omega

/-- A bar that goes on through the first day of a week and into the next week has no higher lane
there. -/
theorem lane_le_of_next_week (g : Grid) (events : List Event) {a b : Edge}
    (ha : a ∈ (swept g events).arena) (hb : b ∈ (swept g events).arena) (haopen : a.isOpen = true)
    (hbopen : b.isOpen = true) (hevent : a.event = b.event) (hweek : a.position % 7 = 0)
    (hnext : Grid.row b.position = Grid.row a.position + 1) :
    ∃ l m, a.lane = some l ∧ b.lane = some m ∧ m ≤ l := by
  obtain ⟨p, l, hp, rfl⟩ := exists_of_mem_swept ha haopen
  obtain ⟨q, m, hq, rfl⟩ := exists_of_mem_swept hb hbopen
  simp only [Piece.opening] at hevent hweek hnext
  have howner := owner_eq_of_index (mem_piecesOf_of_assigned hp) (mem_piecesOf_of_assigned hq)
    hevent
  have hstart := (partOf_of_assigned hp).first_le
  have hfirst : q.first = p.first + 7 := by
    simp only [Grid.row] at hnext
    -- the event has begun by then, so its piece begins with the week
    rcases (partOf_of_assigned hq).first_aligned with hq | hq
    · rw [← howner] at hq
      omega
    · omega
  exact ⟨l, m, rfl, rfl, assigned_lane_le hp hq hevent hweek hfirst⟩

/-- The trips are carried over behind the course, and a week later without it. -/
theorem lane_le_of_next_week_sample :
    ∃ g a b l m, Grid.ofYear? 2025 = some g ∧
      a ∈ (swept g Sample.carried).arena ∧ a.isOpen = true ∧ a.event = 0 ∧ a.position = 70 ∧
      b ∈ (swept g Sample.carried).arena ∧ b.isOpen = true ∧ b.event = 0 ∧ b.position = 77 ∧
      a.lane = some l ∧ b.lane = some m ∧ m ≤ l := by
  obtain ⟨g, -, hg, -, -⟩ := Sample.exists_layout
  have hweek : ⟨Sample.trip, 0, 70, 77, false, false⟩ ∈ piecesOf g Sample.carried := by
    cases hg
    decide
  have hnext : ⟨Sample.trip, 0, 77, 79, false, true⟩ ∈ piecesOf g Sample.carried := by
    cases hg
    decide
  obtain ⟨_, ha⟩ := exists_opening_swept hweek
  obtain ⟨_, hb⟩ := exists_opening_swept hnext
  obtain ⟨l, m, hl, hm, hle⟩ := lane_le_of_next_week g _ ha hb rfl rfl rfl rfl rfl
  exact ⟨g, _, _, l, m, hg, ha, rfl, rfl, rfl, hb, rfl, rfl, rfl, hl, hm, hle⟩

end WallCalendar
