import Mathlib.Data.List.FinRange
import Mathlib.Data.List.Perm.Basic
import WallCalendar.Proofs.Lane.Order

/-!
The order of the sweep is canonical.

Comparing two places of an arena never gives a tie, so the places have one ascending order. Whatever
way of sorting finds it, stable or not, it finds the same, and it is the order of the sweep. In it
smaller positions come first, and at one position the closing edges.
-/

namespace WallCalendar

open Std

namespace Arena

variable {events : Array Event} {arena : Arena} {i j : Nat}

/-- The sweep comes to one place before it comes to another just when the first precedes. -/
theorem sublist_sweepOrder_iff : [i, j].Sublist (sweepOrder events arena) ↔
    arena.Precedes events i j := by
  constructor
  · intro h
    exact List.pairwise_iff_forall_sublist.mp (pairwise_sweepOrder events arena) h
  · intro h
    obtain ⟨-, b, -, hb, -⟩ := id h
    have hmem : j ∈ sweepOrder events arena :=
      mem_sweepOrder.mpr (Array.getElem?_eq_some_iff.mp hb).1
    obtain ⟨done, rest, horder⟩ := List.append_of_mem hmem
    have hi : [i].Sublist done := List.singleton_sublist.mpr ((mem_iff_precedes horder).mpr h)
    have hj : [j].Sublist (j :: rest) := List.singleton_sublist.mpr (List.mem_cons_self ..)
    rw [horder]
    exact hi.append hj

/-! ### One order, however it is found -/

/-- Compares two places of an arena. -/
def compareAt (events : Array Event) (arena : Arena) (i j : Fin arena.size) : Ordering :=
  Edge.compare events arena[i] arena[j] i j

instance : TransCmp (arena.compareAt events) where
  eq_swap := Edge.compare_swap
  isLE_trans {i j k} := Edge.before_trans (arena[i], i.val) (arena[j], j.val) (arena[k], k.val)

instance : LawfulEqCmp (arena.compareAt events) where
  eq_of_compare h := Fin.ext (Edge.place_eq_of_compare h)

theorem precedes_iff_compareAt {i j : Fin arena.size} :
    arena.Precedes events i j ↔ arena.compareAt events i j = .lt := by
  simp [Precedes, compareAt]

/-- Two places of which neither comes after the other are the same. -/
theorem eq_of_compareAt {i j : Fin arena.size} (hij : arena.compareAt events i j ≠ .gt)
    (hji : arena.compareAt events j i ≠ .gt) : i = j := by
  cases hc : arena.compareAt events i j with
  | lt => exact absurd (OrientedCmp.gt_of_lt hc) hji
  | eq => exact LawfulEqCmp.eq_of_compare hc
  | gt => exact absurd hc hij

/-- The places in the order of the sweep, as places of the arena. -/
theorem exists_map_val_eq (events : Array Event) (arena : Arena) :
    ∃ order : List (Fin arena.size), order.map Fin.val = sweepOrder events arena :=
  ⟨(sweepOrder events arena).pmap Fin.mk fun _ => mem_sweepOrder.mp, by
    rw [List.map_pmap]; exact List.pmap_eq_self.mpr fun _ _ => rfl⟩

/-- The sweep goes through all places, and none comes after one that follows it. -/
theorem ascending_of_map_val {order : List (Fin arena.size)}
    (h : order.map Fin.val = sweepOrder events arena) :
    order.Perm (List.finRange arena.size) ∧
      order.Pairwise (arena.compareAt events · · ≠ .gt) := by
  constructor
  · have hperm := sweepOrder_perm events arena
    rw [← h, ← List.map_coe_finRange_eq_range] at hperm
    exact (List.map_perm_map_iff Fin.val_injective).mp hperm
  · have hpair := pairwise_sweepOrder events arena
    rw [← h, List.pairwise_map] at hpair
    refine hpair.imp fun hlt => ?_
    rw [precedes_iff_compareAt.mp hlt]
    decide

/-- Whatever puts all places in ascending order finds the order of the sweep. -/
theorem map_val_eq_sweepOrder_iff {order : List (Fin arena.size)} :
    order.map Fin.val = sweepOrder events arena ↔
      order.Perm (List.finRange arena.size) ∧
        order.Pairwise (arena.compareAt events · · ≠ .gt) := by
  refine ⟨ascending_of_map_val, ?_⟩
  rintro ⟨hperm, hsorted⟩
  obtain ⟨swept, hmap⟩ := exists_map_val_eq events arena
  obtain ⟨hperm', hsorted'⟩ := ascending_of_map_val hmap
  have heq : order = swept :=
    List.Perm.eq_of_pairwise (fun _ _ _ _ => eq_of_compareAt) hsorted hsorted'
      (hperm.trans hperm'.symm)
  rw [heq, hmap]

/-- If every edge belongs to an event of the list, the places of an arena can be compared and are
totally ordered: comparing the other way round gives the reverse, comparing is transitive, and a
place ties with itself only. The sweep goes through all places, and an order of them is that of the
sweep just when no place in it comes after one that follows it. Smaller positions come first there,
and at one position the closing edges come before the opening ones. -/
theorem sweepOrder_canonical (events : Array Event) (arena : Arena)
    (h : ∀ e ∈ arena, e.event < events.size) :
    arena.isOrderable events = true ∧
    (∀ i j, arena.compareAt events i j = .eq ↔ i = j) ∧
    (∀ i j, arena.compareAt events i j = (arena.compareAt events j i).swap) ∧
    (∀ i j k o, arena.compareAt events i j = o → arena.compareAt events j k = o →
      arena.compareAt events i k = o) ∧
    (sweepOrder events arena).Perm (List.range arena.size) ∧
    (∀ order : List (Fin arena.size), order.map Fin.val = sweepOrder events arena ↔
      order.Perm (List.finRange arena.size) ∧
        order.Pairwise (arena.compareAt events · · ≠ .gt)) ∧
    ∀ i j : Fin arena.size,
      (arena[i].position < arena[j].position ∨
        arena[i].position = arena[j].position ∧ arena[i].isClose = true ∧
          arena[j].isOpen = true) →
      [i.val, j.val].Sublist (sweepOrder events arena) := by
  refine ⟨isOrderable_of_owned h, fun _ _ => LawfulEqCmp.compare_eq_iff_eq,
    fun _ _ => OrientedCmp.eq_swap, ?_, sweepOrder_perm events arena,
    fun _ => map_val_eq_sweepOrder_iff, ?_⟩
  · intro i j k o hij hjk
    cases o with
    | lt => exact TransCmp.lt_trans hij hjk
    | eq => exact TransCmp.eq_trans hij hjk
    | gt => exact TransCmp.gt_trans hij hjk
  · intro i j hfirst
    rw [sublist_sweepOrder_iff, precedes_iff_compareAt]
    rcases hfirst with hlt | ⟨heq, hclose, hopen⟩
    · exact Edge.compare_of_position_lt hlt
    · exact Edge.compare_of_closes heq hclose hopen

end Arena

namespace Sample

/-- One concert, given twice. -/
def encore : Array Event := #[concerts wholeDays [], concerts wholeDays []]

/-- The edges of both, those of the second in front. -/
def encoreEdges : Arena :=
  #[.opening 3 1 true, .closing 5 1 0 true, .opening 3 0 true, .closing 5 0 2 true]

end Sample

/-- Of two events alike the one that stands first in the list has its edges visited first, though
they stand last in the arena. -/
theorem Arena.sweepOrder_canonical_sample :
    (∀ e ∈ Sample.encoreEdges, e.event < Sample.encore.size) ∧
    sweepOrder Sample.encore Sample.encoreEdges = [2, 0, 3, 1] ∧
    [0, 3].Sublist (sweepOrder Sample.encore Sample.encoreEdges) := by
  have howned : ∀ e ∈ Sample.encoreEdges, e.event < Sample.encore.size := by decide
  obtain ⟨-, -, -, -, -, hunique, hfirst⟩ :=
    sweepOrder_canonical Sample.encore Sample.encoreEdges howned
  refine ⟨howned, ?_, hfirst ⟨0, by decide⟩ ⟨3, by decide⟩ (.inl (by decide))⟩
  refine ((hunique [⟨2, by decide⟩, ⟨0, by decide⟩, ⟨3, by decide⟩, ⟨1, by decide⟩]).mpr
    ⟨by decide, ?_⟩).symm
  decide

end WallCalendar
