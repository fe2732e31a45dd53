import WallCalendar.Lane.Order
import WallCalendar.Proofs.Event.Order

/-!
The sweep visits the places of an arena in one strict total order.

`Arena.Precedes` is that order. It never ties, so sorting by it has one outcome, and what has been
visited when the sweep comes to a place is just what precedes that place. Positions only grow along
the order, and at one position the closing edges come first.
-/

namespace WallCalendar

open Std

/-! ### Comparing edges -/

namespace Edge

variable {events : Array Event} {a b : Edge} {i j : Nat}

instance : TransCmp fun x y : Edge × Nat => Edge.compare events x.1 y.1 x.2 y.2 :=
  inferInstanceAs <| TransCmp <|
    compareLex (compareOn fun x : Edge × Nat => x.1.position) <|
    compareLex (fun x y : Edge × Nat => compareOn (fun z : Edge × Nat => z.1.isClose) y x) <|
    compareLex (compareOn fun x : Edge × Nat => x.1.definite) <|
    compareLex (compareOn fun x : Edge × Nat => events[x.1.event]?) <|
    compareLex (compareOn fun x : Edge × Nat => x.1.event) <|
    compareOn fun x : Edge × Nat => x.2

theorem compare_swap : Edge.compare events a b i j = (Edge.compare events b a j i).swap :=
  @OrientedCmp.eq_swap _ (fun x y => Edge.compare events x.1 y.1 x.2 y.2) _ (a, i) (b, j)

/-- Two places never tie. -/
theorem place_eq_of_compare (h : Edge.compare events a b i j = .eq) : i = j := by
  simp only [Edge.compare, Ordering.then_eq_eq] at h
  exact LawfulEqOrd.eq_of_compare h.2.2.2.2.2

theorem position_le_of_compare (h : Edge.compare events a b i j = .lt) :
    a.position ≤ b.position := by
  have hp : (Ord.compare a.position b.position).isLE :=
    Ordering.isLE_left_of_isLE_then (by rw [Edge.compare] at h; rw [h]; rfl)
  exact Int.isLE_compare.mp hp

/-- An opening edge comes before a closing edge only at a smaller position. -/
theorem position_lt_of_compare (h : Edge.compare events a b i j = .lt) (ha : a.openedBy = none)
    (hb : b.openedBy.isSome) : a.position < b.position := by
  rcases Int.lt_or_eq_of_le (position_le_of_compare h) with hlt | heq
  · exact hlt
  · have hgt : Ord.compare b.isClose a.isClose = .gt := by
      rw [isClose, isClose, hb, ha]; rfl
    simp [Edge.compare, heq, hgt] at h

theorem compare_of_position_lt (h : a.position < b.position) :
    Edge.compare events a b i j = .lt := by
  rw [Edge.compare, Int.compare_eq_lt.mpr h, Ordering.lt_then]

/-- At one position a closing edge comes before an opening edge. -/
theorem compare_of_closes (h : a.position = b.position) (ha : a.isClose = true)
    (hb : b.isOpen = true) : Edge.compare events a b i j = .lt := by
  have hopens : b.isClose = false := by
    rw [isOpen, Option.isNone_iff_eq_none] at hb
    rw [isClose, hb]; rfl
  have hfirst : Ord.compare b.isClose a.isClose = .lt := by rw [hopens, ha]; rfl
  rw [Edge.compare, h, ReflOrd.compare_self, Ordering.eq_then, hfirst, Ordering.lt_then]

theorem before_trans (x y z : Edge × Nat) (hxy : before events x y = true)
    (hyz : before events y z = true) : before events x z = true :=
  @TransCmp.isLE_trans (Edge × Nat) (fun x y => Edge.compare events x.1 y.1 x.2 y.2) _ x y z
    hxy hyz

theorem before_total (x y : Edge × Nat) : (before events x y || before events y x) = true := by
  rw [before, before, compare_swap]
  cases Edge.compare events y.1 x.1 y.2 x.2 <;> rfl

end Edge

/-! ### The order of places -/

namespace Arena

variable {events : Array Event} {arena : Arena} {i j : Nat}

/-- The sweep comes to place `i` before it comes to place `j`. -/
def Precedes (events : Array Event) (arena : Arena) (i j : Nat) : Prop :=
  ∃ a b, arena[i]? = some a ∧ arena[j]? = some b ∧ Edge.compare events a b i j = .lt

theorem Precedes.asymm (hij : arena.Precedes events i j) : ¬ arena.Precedes events j i := by
  rintro ⟨b, a, hb, ha, hba⟩
  obtain ⟨a', b', ha', hb', hab⟩ := hij
  cases ha.symm.trans ha'
  cases hb.symm.trans hb'
  rw [Edge.compare_swap, hba] at hab
  cases hab

theorem Precedes.ne (h : arena.Precedes events i j) : i ≠ j := by
  rintro rfl
  exact h.asymm h

/-- Of two different places one precedes the other. -/
theorem precedes_or_precedes (hi : i < arena.size) (hj : j < arena.size) (hne : i ≠ j) :
    arena.Precedes events i j ∨ arena.Precedes events j i := by
  have ha := Array.getElem?_eq_getElem hi
  have hb := Array.getElem?_eq_getElem hj
  cases hc : Edge.compare events arena[i] arena[j] i j with
  | lt => exact .inl ⟨_, _, ha, hb, hc⟩
  | eq => exact absurd (Edge.place_eq_of_compare hc) hne
  | gt => exact .inr ⟨_, _, hb, ha, by rw [Edge.compare_swap, hc]; rfl⟩

/-- Edges that belong to events of the list can be put in order. -/
theorem isOrderable_of_owned (h : ∀ e ∈ arena, e.event < events.size) :
    arena.isOrderable events = true := by
  simp only [isOrderable, List.all_eq_true, Bool.or_eq_true, decide_eq_true_eq]
  rintro ⟨e, i⟩ he
  rw [List.mk_mem_zipIdx_iff_getElem?, Array.getElem?_toList] at he
  exact .inl (h e (Array.mem_of_getElem? he))

theorem mem_sweepOrder : i ∈ sweepOrder events arena ↔ i < arena.size := by
  simp only [sweepOrder, List.mem_map, List.mem_mergeSort, Prod.exists, exists_eq_right,
    List.mk_mem_zipIdx_iff_getElem?, Array.getElem?_toList]
  constructor
  · rintro ⟨e, he⟩
    exact (Array.getElem?_eq_some_iff.mp he).1
  · intro hi
    exact ⟨arena[i], Array.getElem?_eq_getElem hi⟩

/-- The sweep visits every place once. -/
theorem sweepOrder_perm (events : Array Event) (arena : Arena) :
    (sweepOrder events arena).Perm (List.range arena.size) := by
  have hperm := (List.mergeSort_perm arena.toList.zipIdx (Edge.before events)).map Prod.snd
  rwa [List.zipIdx_map_snd, Array.length_toList, ← List.range_eq_range'] at hperm

theorem nodup_sweepOrder (events : Array Event) (arena : Arena) :
    (sweepOrder events arena).Nodup :=
  (sweepOrder_perm events arena).symm.nodup List.nodup_range

/-- The sweep visits the places one after the other in their order. -/
theorem pairwise_sweepOrder (events : Array Event) (arena : Arena) :
    (sweepOrder events arena).Pairwise (arena.Precedes events) := by
  have hnodup := nodup_sweepOrder events arena
  have hsorted :=
    List.pairwise_mergeSort (@Edge.before_trans events) Edge.before_total
      arena.toList.zipIdx
  rw [sweepOrder, List.Nodup, List.pairwise_map] at hnodup
  rw [sweepOrder, List.pairwise_map]
  refine List.Pairwise.imp_of_mem ?_ (hsorted.and hnodup)
  rintro ⟨a, i⟩ ⟨b, j⟩ ha hb ⟨hle, hne⟩
  rw [List.mem_mergeSort, List.mk_mem_zipIdx_iff_getElem?, Array.getElem?_toList] at ha hb
  refine ⟨a, b, ha, hb, ?_⟩
  cases hc : Edge.compare events a b i j with
  | lt => rfl
  | eq => exact absurd (Edge.place_eq_of_compare hc) hne
  | gt => simp [Edge.before, hc] at hle

/-- What has been visited when the sweep comes to a place is what precedes it. -/
theorem mem_iff_precedes {done rest : List Nat}
    (h : sweepOrder events arena = done ++ i :: rest) : j ∈ done ↔ arena.Precedes events j i := by
  have hpair := pairwise_sweepOrder events arena
  rw [h, List.pairwise_append, List.pairwise_cons] at hpair
  obtain ⟨-, ⟨hrest, -⟩, hdone⟩ := hpair
  constructor
  · intro hj
    exact hdone j hj i (List.mem_cons_self ..)
  · intro hj
    obtain ⟨a, b, ha, hb, hab⟩ := hj
    have hmem : j ∈ sweepOrder events arena :=
      mem_sweepOrder.mpr (Array.getElem?_eq_some_iff.mp ha).1
    rw [h, List.mem_append, List.mem_cons] at hmem
    have hprec : arena.Precedes events j i := ⟨a, b, ha, hb, hab⟩
    rcases hmem with hj | rfl | hj
    · exact hj
    · exact absurd rfl hprec.ne
    · exact absurd (hrest j hj) hprec.asymm

end Arena

end WallCalendar
