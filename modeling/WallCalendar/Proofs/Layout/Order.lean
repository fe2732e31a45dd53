import WallCalendar.Proofs.Lane.Matching
import WallCalendar.Proofs.Layout.Lanes

/-!
The segments of a layout stand in strict order, and a layout is fixed by what it shows.

No two segments of a layout tie, since they would lie over one day in one lane. So their order
follows from the segments themselves, as do the lanes counted and those kept clear, and two layouts
of one grid are equal once they have the same segments and the same stacked events. In particular
the order in which events are given has no influence.
-/

namespace WallCalendar

open Std

namespace Segment

variable {s t : Segment}

instance : TransCmp compare :=
  inferInstanceAs <| TransCmp <|
    compareLex (compareOn row) <|
    compareLex (compareOn colStart) <|
    compareOn lane

theorem keys_of_compare (h : compare s t = .eq) :
    s.row = t.row ∧ s.colStart = t.colStart ∧ s.lane = t.lane := by
  simp only [compare, Ordering.then_eq_eq] at h
  exact ⟨LawfulEqOrd.eq_of_compare h.1, LawfulEqOrd.eq_of_compare h.2.1,
    LawfulEqOrd.eq_of_compare h.2.2⟩

/-- Lists in strict order are equal if they have the same members. -/
theorem eq_of_mem_iff {ss ts : List Segment} (hs : ss.Pairwise (compare · · = .lt))
    (ht : ts.Pairwise (compare · · = .lt)) (h : ∀ s, s ∈ ss ↔ s ∈ ts) : ss = ts := by
  have hnodup : ∀ {us : List Segment}, us.Pairwise (compare · · = .lt) → us.Nodup := by
    intro us hus
    refine hus.imp ?_
    rintro s _ hlt rfl
    have hself : compare s s = .eq := ReflCmp.compare_self
    rw [hself] at hlt
    cases hlt
  have hperm := (List.perm_ext_iff_of_nodup (hnodup hs) (hnodup ht)).mpr h
  refine List.Perm.eq_of_pairwise ?_ hs ht hperm
  intro s t _ _ hst hts
  have hswap : compare s t = (compare t s).swap := OrientedCmp.eq_swap
  rw [hts, hst] at hswap
  cases hswap

end Segment

namespace Layout

variable {g : Grid} {xs ys events : List Event} {l m : Layout}

theorem colStart_lt_colEnd (h : ofEvents g events = .ok l) {s : Segment} (hs : s ∈ l.segments) :
    s.colStart < s.colEnd := by
  obtain ⟨p, lane, hp, rfl⟩ := (mem_segments_iff h).mp hs
  have hpart := partOf_of_assigned hp
  have hne := hpart.nonempty
  have hrow := hpart.row_eq
  simp only [Segment.ofPiece, Grid.row, Grid.col] at *
  omega

/-- The segments of a layout stand in strict order. -/
theorem pairwise_compare (h : ofEvents g events = .ok l) :
    l.segments.Pairwise (Segment.compare · · = .lt) := by
  have hsorted : l.segments.Pairwise fun s t => (Segment.compare s t).isLE = true := by
    obtain ⟨-, rfl⟩ := ofEvents_eq_ok_iff.mp h
    exact pairwise_mergeSort_isLE Segment.compare _
  refine (hsorted.and (pairwise_segments h)).imp_of_mem ?_
  rintro s t hs ht ⟨hle, hapart⟩
  cases hc : Segment.compare s t with
  | lt => rfl
  | eq =>
    obtain ⟨hrow, hcol, hlane⟩ := Segment.keys_of_compare hc
    have hs := colStart_lt_colEnd h hs
    have ht := colStart_lt_colEnd h ht
    exact absurd hlane (hapart ⟨hrow, by omega, by omega⟩)
  | gt =>
    rw [hc] at hle
    cases hle

/-- The lanes kept clear on a day are the least bound of the lanes of the segments over it. -/
theorem reservedAt_le_iff (h : ofEvents g events = .ok l) {ord : Int} {n : Nat} :
    (allocate (events.filter Event.isBar).toArray
      (decompose g (events.filter Event.isBar))).1.reservedAt ord ≤ n ↔
      ∀ s ∈ l.segments, s.covers ord = true → s.lane < n := by
  rw [reservedAt_decompose_le_iff]
  constructor
  · intro hall s hs hcovers
    obtain ⟨p, lane, hp, rfl⟩ := (mem_segments_iff h).mp hs
    rw [Segment.covers_of_assigned hp] at hcovers
    exact hall p lane hp hcovers
  · intro hall p lane hp hcovers
    refine hall _ ((mem_segments_iff h).mpr ⟨p, lane, hp, rfl⟩) ?_
    rwa [Segment.covers_of_assigned hp]

/-- A layout is fixed by its segments and its stacked events. -/
theorem eq_of_segments (h : ofEvents g xs = .ok l) (h' : ofEvents g ys = .ok m)
    (hstack : Event.sort (xs.filter (!·.isBar)) = Event.sort (ys.filter (!·.isBar)))
    (hmem : ∀ s, s ∈ l.segments ↔ s ∈ m.segments) : l = m := by
  have hsegments := Segment.eq_of_mem_iff (pairwise_compare h) (pairwise_compare h') hmem
  have hcount : l.laneCount = m.laneCount :=
    eq_of_forall_ge_iff fun n => by rw [laneCount_le_iff h, laneCount_le_iff h', hsegments]
  have hreserved : (allocate (xs.filter Event.isBar).toArray
      (decompose g (xs.filter Event.isBar))).1.reservedAt =
      (allocate (ys.filter Event.isBar).toArray
        (decompose g (ys.filter Event.isBar))).1.reservedAt :=
    funext fun ord => eq_of_forall_ge_iff fun n => by
      rw [reservedAt_le_iff h, reservedAt_le_iff h', hsegments]
  obtain ⟨-, rfl⟩ := ofEvents_eq_ok_iff.mp h
  obtain ⟨-, rfl⟩ := ofEvents_eq_ok_iff.mp h'
  simp only [drawn] at hsegments hcount ⊢
  rw [hsegments, hcount, hreserved, hstack]

/-- Rearranged events have the same layout. -/
theorem ofEvents_of_perm (h : ofEvents g xs = .ok l) (hperm : xs.Perm ys) :
    ofEvents g ys = .ok l := by
  have hshows := (ofEvents_eq_ok_iff.mp h).1
  have h' : ofEvents g ys = .ok (drawn g ys) :=
    ofEvents_eq_ok_iff.mpr ⟨fun e he => hshows e (hperm.mem_iff.mpr he), rfl⟩
  obtain ⟨σ, hσ⟩ := Renumbering.exists_of_perm (hperm.filter Event.isBar)
  rw [h']
  refine congrArg Except.ok (eq_of_segments h h' (Event.sort_eq_of_perm (hperm.filter _)) ?_).symm
  intro s
  rw [mem_segments_iff h, mem_segments_iff h']
  simp only [hσ.mem_assigned_iff]
  constructor
  · rintro ⟨p, lane, hp, rfl⟩
    exact ⟨p.renumber σ, lane, ⟨p, hp, rfl⟩, rfl⟩
  · rintro ⟨_, lane, ⟨p, hp, rfl⟩, rfl⟩
    exact ⟨p, lane, hp, rfl⟩

end Layout

end WallCalendar
