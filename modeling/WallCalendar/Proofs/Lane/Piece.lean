import Mathlib.Data.List.Pairwise
import Mathlib.Tactic.ByContra
import WallCalendar.Lane.Edge
import WallCalendar.Proofs.Event.Span

/-!
The pieces of bars, one for each week a bar touches.

An arena holds its pieces two edges at a time, so the piece with number `k` begins at place `2 * k`
and ends at the place after it. The pieces of one bar follow each other without a gap, each lies in
one week, and only the first begins and only the last ends with the event. A day of the bar is thus
covered by one of its pieces and by no second one.
-/

namespace WallCalendar

/-- The part of a bar from the day `first` up to, and not including, the day `stop`. -/
structure Piece where
  owner : Event
  /-- The place of the owner in the list of bars. -/
  index : Nat
  first : Int
  stop : Int
  /-- Whether the event itself begins here. -/
  begins : Bool
  /-- Whether the event itself ends here. -/
  ends : Bool
  deriving DecidableEq

namespace Piece

/-- The edge where a piece begins, with the lane it has been given. -/
def opening (p : Piece) (lane : Option Nat) : Edge := ⟨p.first, p.index, none, p.begins, lane⟩

/-- The edge where a piece ends that begins at `place`. -/
def closing (p : Piece) (place : Nat) : Edge := .closing p.stop p.index place p.ends

/-- Whether a piece covers the day `ord`. -/
def covers (p : Piece) (ord : Int) : Bool := decide (p.first ≤ ord ∧ ord < p.stop)

theorem covers_iff {p : Piece} {ord : Int} : p.covers ord = true ↔ p.first ≤ ord ∧ ord < p.stop :=
  decide_eq_true_iff

/-- The edges of a list of pieces, of which the first begins at `place`; `lane` says what lane the
piece that begins at a place has. -/
def edges (lane : Nat → Option Nat) : Nat → List Piece → List Edge
  | _, [] => []
  | place, p :: ps => p.opening (lane place) :: p.closing place :: edges lane (place + 2) ps

variable (lane : Nat → Option Nat)

theorem length_edges : ∀ (place : Nat) (ps : List Piece),
    (edges lane place ps).length = 2 * ps.length
  | _, [] => rfl
  | place, p :: ps => by simp only [edges, List.length_cons, length_edges (place + 2) ps]; omega

theorem edges_append : ∀ (place : Nat) (ps qs : List Piece),
    edges lane place (ps ++ qs) = edges lane place ps ++ edges lane (place + 2 * ps.length) qs
  | _, [], _ => rfl
  | place, p :: ps, qs => by
      simp only [List.cons_append, edges, edges_append (place + 2) ps qs, List.length_cons]
      rw [show place + 2 + 2 * ps.length = place + 2 * (ps.length + 1) by omega]

theorem getElem?_edges_even : ∀ (place k : Nat) (ps : List Piece),
    (edges lane place ps)[2 * k]? = ps[k]?.map fun p => p.opening (lane (place + 2 * k))
  | _, _, [] => by simp [edges]
  | _, 0, p :: ps => by simp [edges]
  | place, k + 1, p :: ps => by
      rw [edges, show 2 * (k + 1) = 2 * k + 1 + 1 by omega]
      simp only [List.getElem?_cons_succ, getElem?_edges_even (place + 2) k ps]
      rw [show place + 2 + 2 * k = place + (2 * k + 1 + 1) by omega]

theorem getElem?_edges_odd : ∀ (place k : Nat) (ps : List Piece),
    (edges lane place ps)[2 * k + 1]? = ps[k]?.map fun p => p.closing (place + 2 * k)
  | _, _, [] => by simp [edges]
  | _, 0, p :: ps => by simp [edges]
  | place, k + 1, p :: ps => by
      rw [edges, show 2 * (k + 1) + 1 = 2 * k + 1 + 1 + 1 by omega]
      simp only [List.getElem?_cons_succ, getElem?_edges_odd (place + 2) k ps]
      rw [show place + 2 + 2 * k = place + 2 * (k + 1) by omega]

end Piece

/-! ### Cutting a bar -/

/-- The cuts that make every part of the days from `first` to `stop` lie in one week. -/
def CutByWeek : Int → List Int → Int → Prop
  | first, [], stop => first < stop ∧ Grid.row first = Grid.row (stop - 1)
  | first, cut :: cuts, stop =>
    first < cut ∧ Grid.row first = Grid.row (cut - 1) ∧ cut % 7 = 0 ∧ CutByWeek cut cuts stop

theorem CutByWeek.first_lt_stop : ∀ {cuts : List Int} {first stop : Int},
    CutByWeek first cuts stop → first < stop
  | [], _, _, h => h.1
  | _ :: _, _, _, h => Int.lt_trans h.1 h.2.2.2.first_lt_stop

theorem weekCuts_eq_nil {first stop : Int} (h : Grid.row (stop - 1) ≤ Grid.row first) :
    weekCuts first stop = [] := by
  rw [weekCuts, Int.toNat_of_nonpos (by omega)]; rfl

theorem weekCuts_eq_cons {first stop : Int} (h : Grid.row first < Grid.row (stop - 1)) :
    weekCuts first stop =
      7 * (Grid.row first + 1) :: weekCuts (7 * (Grid.row first + 1)) stop := by
  have hrow : Grid.row (7 * (Grid.row first + 1)) = Grid.row first + 1 := by
    simp only [Grid.row]; omega
  obtain ⟨n, hn⟩ : ∃ n : Nat, (Grid.row (stop - 1) - Grid.row first).toNat = n + 1 :=
    ⟨(Grid.row (stop - 1) - Grid.row first - 1).toNat, by omega⟩
  have hn' : (Grid.row (stop - 1) - Grid.row (7 * (Grid.row first + 1))).toNat = n := by
    rw [hrow]; omega
  rw [weekCuts, weekCuts, hn, hn', hrow, List.range_succ_eq_map, List.map_cons, List.map_map]
  congr 1
  · simp
  · refine List.map_congr_left fun k _ => ?_
    simp only [Function.comp_apply, Nat.succ_eq_add_one, Int.natCast_add, Int.natCast_one]
    omega

/-- The week boundaries inside a bar cut it by week. -/
theorem cutByWeek_weekCuts {first stop : Int} (h : first < stop) :
    CutByWeek first (weekCuts first stop) stop := by
  -- induction on the number of boundaries still to come
  obtain ⟨n, hn⟩ : ∃ n : Nat, (Grid.row (stop - 1) - Grid.row first).toNat = n := ⟨_, rfl⟩
  induction n generalizing first with
  | zero =>
    have hle : Grid.row (stop - 1) ≤ Grid.row first := by omega
    rw [weekCuts_eq_nil hle]
    refine ⟨h, ?_⟩
    simp only [Grid.row] at hle ⊢
    omega
  | succ n ih =>
    have hlt : Grid.row first < Grid.row (stop - 1) := by omega
    rw [weekCuts_eq_cons hlt]
    refine ⟨?_, ?_, ?_, ih ?_ ?_⟩ <;> simp only [Grid.row] at hlt hn ⊢ <;> omega

namespace Piece

variable {owner : Event} {index : Nat}

/-- The pieces from `first` through the cuts to `stop`. -/
def cutAt (owner : Event) (index : Nat) : Bool → Int → List Int → Int → List Piece
  | begins, first, [], stop => [⟨owner, index, first, stop, begins, true⟩]
  | begins, first, cut :: cuts, stop =>
    ⟨owner, index, first, cut, begins, false⟩ :: cutAt owner index false cut cuts stop

theorem edges_cutAt : ∀ (cuts : List Int) (begins : Bool) (first stop : Int) (place : Nat),
    edges (fun _ => none) place (cutAt owner index begins first cuts stop) =
      pieces index begins first cuts stop place
  | [], _, _, _, _ => rfl
  | cut :: cuts, begins, first, stop, place => by
      rw [cutAt, edges, pieces, edges_cutAt cuts false cut stop (place + 2)]; rfl

/-- How a piece lies in the days from `first` to `stop`; `begins` says whether the event itself
begins with the first of them. -/
structure PartOf (begins : Bool) (first stop : Int) (p : Piece) : Prop where
  first_le : first ≤ p.first
  nonempty : p.first < p.stop
  stop_le : p.stop ≤ stop
  row_eq : Grid.row p.first = Grid.row (p.stop - 1)
  begins_iff : p.begins = true ↔ begins = true ∧ p.first = first
  ends_iff : p.ends = true ↔ p.stop = stop
  first_aligned : p.first = first ∨ p.first % 7 = 0
  stop_aligned : p.stop = stop ∨ p.stop % 7 = 0

theorem partOf_cutAt : ∀ {cuts : List Int} {begins : Bool} {first stop : Int} {p : Piece},
    CutByWeek first cuts stop → p ∈ cutAt owner index begins first cuts stop →
      p.owner = owner ∧ p.index = index ∧ p.PartOf begins first stop
  | [], begins, first, stop, p, h, hp => by
      rw [cutAt, List.mem_singleton] at hp
      subst hp
      exact ⟨rfl, rfl, ⟨Int.le_refl first, h.1, Int.le_refl stop, h.2, by simp, by simp, .inl rfl,
        .inl rfl⟩⟩
  | cut :: cuts, begins, first, stop, p, ⟨hlt, hrow, haligned, hrest⟩, hp => by
      have hstop := hrest.first_lt_stop
      rcases List.mem_cons.mp hp with rfl | hp
      · refine ⟨rfl, rfl, ⟨Int.le_refl first, hlt, Int.le_of_lt hstop, hrow, by simp, ?_, .inl rfl,
          .inr haligned⟩⟩
        simp only [Bool.false_eq_true, false_iff]
        omega
      · obtain ⟨howner, hindex, hpart⟩ := partOf_cutAt hrest hp
        have hle := hpart.first_le
        refine ⟨howner, hindex, ⟨by omega, hpart.nonempty, hpart.stop_le, hpart.row_eq, ?_,
          hpart.ends_iff, ?_, hpart.stop_aligned⟩⟩
        · rw [hpart.begins_iff]
          simp only [Bool.false_eq_true, false_and, false_iff, not_and]
          omega
        · rcases hpart.first_aligned with hfirst | hfirst
          · exact .inr (hfirst ▸ haligned)
          · exact .inr hfirst

/-- Pieces of one bar come one after the other. -/
theorem pairwise_cutAt : ∀ {cuts : List Int} {begins : Bool} {first stop : Int},
    CutByWeek first cuts stop →
      (cutAt owner index begins first cuts stop).Pairwise fun p q => p.stop ≤ q.first
  | [], _, _, _, _ => List.pairwise_singleton ..
  | _ :: _, _, _, _, ⟨_, _, _, hrest⟩ => by
      refine List.pairwise_cons.mpr ⟨?_, pairwise_cutAt hrest⟩
      intro q hq
      exact (partOf_cutAt hrest hq).2.2.first_le

/-- A day of a bar is covered by one of its pieces, any other day by none. -/
theorem filter_covers_cutAt {ord : Int} : ∀ {cuts : List Int} {begins : Bool} {first stop : Int},
    CutByWeek first cuts stop →
      ((cutAt owner index begins first cuts stop).filter (·.covers ord)).map Piece.owner =
        if first ≤ ord ∧ ord < stop then [owner] else []
  | [], begins, first, stop, _ => by
      by_cases hcov : first ≤ ord ∧ ord < stop <;> simp [cutAt, covers, hcov]
  | cut :: cuts, begins, first, stop, ⟨hlt, _, _, hrest⟩ => by
      have hstop := hrest.first_lt_stop
      have ih : ((cutAt owner index false cut cuts stop).filter (·.covers ord)).map Piece.owner =
          if cut ≤ ord ∧ ord < stop then [owner] else [] := filter_covers_cutAt hrest
      rw [cutAt, List.filter_cons]
      by_cases hcut : ord < cut
      · rw [if_neg (by omega)] at ih
        by_cases hfirst : first ≤ ord
        · rw [if_pos (by simp [covers, hfirst, hcut]), List.map_cons, ih,
            if_pos ⟨hfirst, by omega⟩]
        · rw [if_neg (by simp [covers, hfirst]), ih, if_neg (by omega)]
      · rw [if_neg (by simp [covers, hcut]), ih]
        have hiff : (cut ≤ ord ∧ ord < stop) ↔ (first ≤ ord ∧ ord < stop) := by omega
        simp only [hiff]

end Piece

/-! ### The pieces of a list of bars -/

/-- The pieces of one bar. -/
def Event.pieces (g : Grid) (e : Event) (index : Nat) : List Piece :=
  let first := g.ord e.startDate
  let stop := g.ord e.lastDay + 1
  Piece.cutAt e index true first (weekCuts first stop) stop

/-- The pieces of all bars. -/
def piecesOf (g : Grid) (bars : List Event) : List Piece :=
  bars.zipIdx.flatMap fun (e, index) => e.pieces g index

/-- The arena of a list of bars holds their pieces, two edges each. -/
theorem decompose_eq (g : Grid) (bars : List Event) :
    decompose g bars = (Piece.edges (fun _ => none) 0 (piecesOf g bars)).toArray := by
  suffices h : ∀ (bars : List Event) (index place : Nat), decomposeFrom g index place bars =
      Piece.edges (fun _ => none) place
        ((bars.zipIdx index).flatMap fun (e, i) => e.pieces g i) by
    rw [decompose, h, piecesOf]
  intro bars
  induction bars with
  | nil => intros; rfl
  | cons e bars ih =>
    intro index place
    have hedges : e.edges g index place = Piece.edges (fun _ => none) place (e.pieces g index) :=
      (Piece.edges_cutAt ..).symm
    rw [decomposeFrom, List.zipIdx_cons, List.flatMap_cons, Piece.edges_append, hedges, ih,
      Piece.length_edges]

variable {g : Grid} {bars : List Event} {e : Event} {p q : Piece}

theorem Event.cutByWeek (g : Grid) (e : Event) :
    CutByWeek (g.ord e.startDate) (weekCuts (g.ord e.startDate) (g.ord e.lastDay + 1))
      (g.ord e.lastDay + 1) := by
  have hle : e.startDate.number ≤ e.lastDay.number := e.span.startDate_le_lastDay
  exact cutByWeek_weekCuts (by simp only [Grid.ord]; omega)

theorem mem_piecesOf :
    p ∈ piecesOf g bars ↔ bars[p.index]? = some p.owner ∧ p ∈ p.owner.pieces g p.index := by
  simp only [piecesOf, List.mem_flatMap, Prod.exists, List.mk_mem_zipIdx_iff_getElem?]
  constructor
  · rintro ⟨e, index, he, hp⟩
    obtain ⟨howner, hindex, -⟩ := Piece.partOf_cutAt (e.cutByWeek g) hp
    rw [howner, hindex]
    exact ⟨he, hp⟩
  · rintro ⟨he, hp⟩
    exact ⟨p.owner, p.index, he, hp⟩

/-- The bars before the one at `i` have their pieces before its own, those after it behind. -/
theorem exists_piecesOf_eq (g : Grid) {i : Nat} (h : bars[i]? = some e) :
    ∃ front back, piecesOf g bars = front ++ (e.pieces g i ++ back) ∧
      (∀ p ∈ front, p.index < i) ∧ ∀ p ∈ back, i < p.index := by
  obtain ⟨xs, ys, rfl, rfl⟩ : ∃ xs ys, bars = xs ++ e :: ys ∧ xs.length = i := by
    obtain ⟨hi, rfl⟩ := List.getElem?_eq_some_iff.mp h
    refine ⟨bars.take i, bars.drop (i + 1), ?_, List.length_take_of_le (Nat.le_of_lt hi)⟩
    rw [← List.drop_eq_getElem_cons hi, List.take_append_drop]
  refine ⟨piecesOf g xs,
    (ys.zipIdx (xs.length + 1)).flatMap fun (e, index) => e.pieces g index, ?_, ?_, ?_⟩
  · rw [piecesOf, List.zipIdx_append, List.flatMap_append, Nat.zero_add, List.zipIdx_cons,
      List.flatMap_cons, piecesOf]
  · intro p hp
    exact (List.getElem?_eq_some_iff.mp (mem_piecesOf.mp hp).1).1
  · intro p hp
    obtain ⟨⟨e', index⟩, hmem, hp⟩ := List.mem_flatMap.mp hp
    rw [(Piece.partOf_cutAt (e'.cutByWeek g) hp).2.1]
    exact (List.mk_mem_zipIdx_iff_le_and_getElem?_sub.mp hmem).1

/-- Every piece lies in the days of its owner. -/
theorem partOf_of_mem_piecesOf (hp : p ∈ piecesOf g bars) :
    p.PartOf true (g.ord p.owner.startDate) (g.ord p.owner.lastDay + 1) :=
  (Piece.partOf_cutAt (p.owner.cutByWeek g) (mem_piecesOf.mp hp).2).2.2

/-- Two pieces belong to different bars or share no day. -/
def Piece.Apart (p q : Piece) : Prop :=
  p.index ≠ q.index ∨ p.stop ≤ q.first ∨ q.stop ≤ p.first

instance : Std.Symm Piece.Apart := ⟨fun _ _ h => h.imp Ne.symm Or.symm⟩

theorem pairwise_piecesOf (g : Grid) (bars : List Event) :
    (piecesOf g bars).Pairwise Piece.Apart := by
  rw [piecesOf, List.pairwise_flatMap]
  refine ⟨?_, ?_⟩
  · rintro ⟨e, index⟩ -
    exact (Piece.pairwise_cutAt (e.cutByWeek g)).imp fun h => .inr (.inl h)
  · have hnodup : (bars.zipIdx.map Prod.snd).Nodup := by
      rw [List.zipIdx_map_snd]
      exact List.nodup_range'
    refine (List.pairwise_map.mp hnodup).imp ?_
    rintro ⟨e, i⟩ ⟨e', j⟩ hne p hp q hq
    refine .inl ?_
    rw [(Piece.partOf_cutAt (e.cutByWeek g) hp).2.1, (Piece.partOf_cutAt (e'.cutByWeek g) hq).2.1]
    exact hne

/-- Two pieces of one bar that begin on the same day are the same. -/
theorem eq_of_mem_piecesOf (hp : p ∈ piecesOf g bars) (hq : q ∈ piecesOf g bars)
    (hindex : p.index = q.index) (hfirst : p.first = q.first) : p = q := by
  by_contra hne
  have hp' := (partOf_of_mem_piecesOf hp).nonempty
  have hq' := (partOf_of_mem_piecesOf hq).nonempty
  rcases (pairwise_piecesOf g bars).forall hp hq hne with h | h
  · exact h hindex
  · omega

theorem nodup_piecesOf (g : Grid) (bars : List Event) : (piecesOf g bars).Nodup := by
  refine List.Pairwise.imp_of_mem ?_ (pairwise_piecesOf g bars)
  rintro p q hp - h rfl
  have := (partOf_of_mem_piecesOf hp).nonempty
  rcases h with h | h
  · exact h rfl
  · omega

/-- The pieces of a bar do not hang on its place in the list. -/
theorem mem_pieces_of_index {i : Nat} (hp : p ∈ e.pieces g i) (j : Nat) :
    { p with index := j } ∈ e.pieces g j := by
  suffices h : ∀ (cuts : List Int) (begins : Bool) (first stop : Int),
      p ∈ Piece.cutAt e i begins first cuts stop →
        { p with index := j } ∈ Piece.cutAt e j begins first cuts stop from h _ _ _ _ hp
  intro cuts
  induction cuts with
  | nil =>
    intro begins first stop hp
    rw [Piece.cutAt, List.mem_singleton] at hp ⊢
    rw [hp]
  | cons cut cuts ih =>
    intro begins first stop hp
    rw [Piece.cutAt, List.mem_cons] at hp ⊢
    rcases hp with rfl | hp
    · exact .inl rfl
    · exact .inr (ih false cut stop hp)

/-- The pieces that cover a day belong to the bars that are drawn on it, one for each. -/
theorem filter_covers_piecesOf (g : Grid) (bars : List Event) (ord : Int) :
    ((piecesOf g bars).filter (·.covers ord)).map Piece.owner =
      bars.filter fun e => decide (g.ord e.startDate ≤ ord ∧ ord ≤ g.ord e.lastDay) := by
  suffices h : ∀ (bars : List Event) (index : Nat),
      (((bars.zipIdx index).flatMap fun (e, i) => e.pieces g i).filter (·.covers ord)).map
          Piece.owner =
        bars.filter fun e => decide (g.ord e.startDate ≤ ord ∧ ord ≤ g.ord e.lastDay) from h bars 0
  intro bars
  induction bars with
  | nil => intro index; rfl
  | cons e bars ih =>
    intro index
    have he : ((e.pieces g index).filter (·.covers ord)).map Piece.owner =
        if g.ord e.startDate ≤ ord ∧ ord < g.ord e.lastDay + 1 then [e] else [] :=
      Piece.filter_covers_cutAt (e.cutByWeek g)
    rw [List.zipIdx_cons, List.flatMap_cons, List.filter_append, List.map_append, he, ih,
      List.filter_cons]
    by_cases hcov : g.ord e.startDate ≤ ord ∧ ord ≤ g.ord e.lastDay
    · rw [if_pos (by omega), if_pos (by simpa using hcov)]; rfl
    · rw [if_neg (by omega), if_neg (by simpa using hcov)]; rfl

end WallCalendar
