import Mathlib.Data.List.Induction
import WallCalendar.Proofs.Lane.Finish
import WallCalendar.Proofs.Layout.Order

/-!
The lanes kept clear on a day are just those drawn over it.

The sweep notes after every edge how many lanes are in use, and for a day the last note at or before
it counts. Positions never go back along the sweep, so the note that survives for a position is the
one made after its last edge, and nothing changes between positions. What is kept clear is therefore
one more than the highest lane of the pieces over the day, on every day, also outside the grid.
-/

namespace WallCalendar

/-! ### One note for each position -/

namespace Sweep

/-- Notes whose positions never grow, the latest first. -/
def Descending (log : List (Int × Nat)) : Prop := log.Pairwise fun m n => n.1 ≤ m.1

/-- The last of the records at or before the day `ord`. -/
def recordAt (records : List (Int × Nat)) (ord : Int) : Nat :=
  match records.reverse.find? (·.1 ≤ ord) with
  | some (_, lanes) => lanes
  | none => 0

/-- The notes kept ascend, one for each position. -/
theorem pairwise_foldl_keep : ∀ {log notes : List (Int × Nat)}, Descending log →
    (∀ m ∈ notes, ∀ n ∈ log, n.1 ≤ m.1) → notes.Pairwise (fun m n => m.1 < n.1) →
      (log.foldl keep notes).Pairwise fun m n => m.1 < n.1
  | [], _, _, _, hnotes => hnotes
  | n :: log, [], hlog, _, _ => by
      obtain ⟨hhead, htail⟩ := List.pairwise_cons.mp hlog
      rw [List.foldl_cons, keep]
      refine pairwise_foldl_keep htail ?_ (List.pairwise_singleton ..)
      simpa using hhead
  | n :: log, m :: notes, hlog, hbelow, hnotes => by
      obtain ⟨hhead, htail⟩ := List.pairwise_cons.mp hlog
      have hlater : ∀ k ∈ m :: notes, ∀ n' ∈ log, n'.1 ≤ k.1 := fun k hk n' hn' =>
        hbelow k hk n' (List.mem_cons_of_mem _ hn')
      rw [List.foldl_cons, keep]
      split
      · exact pairwise_foldl_keep htail hlater hnotes
      next hne =>
        refine pairwise_foldl_keep htail ?_ (List.pairwise_cons.mpr ⟨?_, hnotes⟩)
        · rintro k (_ | ⟨_, hk⟩)
          · exact hhead
          · exact hlater k hk
        · -- the first note kept is the lowest so far
          have hm : n.1 < m.1 := by
            have := hbelow m (List.mem_cons_self ..) n (List.mem_cons_self ..)
            omega
          rintro k (_ | ⟨_, hk⟩)
          · exact hm
          · exact Int.lt_trans hm ((List.pairwise_cons.mp hnotes).1 k hk)

/-- A day finds the same note among those kept as among all. -/
theorem find?_foldl_keep {ord : Int} : ∀ {log notes : List (Int × Nat)},
    (log.foldl keep notes).reverse.find? (·.1 ≤ ord) =
      (notes.reverse ++ log).find? (·.1 ≤ ord)
  | [], notes => by rw [List.append_nil]; rfl
  | n :: log, [] => by
      rw [List.foldl_cons, find?_foldl_keep]; rfl
  | n :: log, m :: notes => by
      rw [List.foldl_cons, find?_foldl_keep, keep]
      split
      next heq =>
        -- where the note left out would be found, the one of its position is found before it
        simp only [List.reverse_cons, List.append_assoc, List.find?_append, List.cons_append,
          List.nil_append, List.find?_cons, heq]
        cases decide (n.1 ≤ ord) <;> rfl
      · simp only [List.reverse_cons, List.append_assoc, List.cons_append, List.nil_append]

theorem recordAt_reserved (s : Sweep) (ord : Int) : recordAt s.reserved ord = s.reservedAt ord := by
  rw [recordAt, reserved, find?_foldl_keep]; rfl

variable {events : Array Event} {arena : Arena}

/-- Every note has the position of a place visited, and the latest come first. -/
theorem descending_log (h : arena.Linked) (done rest : List Nat)
    (horder : sweepOrder events arena = done ++ rest) :
    Descending (after arena done).log ∧
      ∀ n ∈ (after arena done).log, ∃ i ∈ done, ∃ e, arena[i]? = some e ∧ e.position = n.1 := by
  induction done using List.reverseRecOn generalizing rest with
  | nil => exact ⟨List.Pairwise.nil, by simp [after, start]⟩
  | append_singleton done place ih =>
    rw [List.append_assoc] at horder
    obtain ⟨hdesc, hnotes⟩ := ih _ horder
    obtain ⟨e, he⟩ : ∃ e, arena[place]? = some e :=
      ⟨_, Array.getElem?_eq_getElem (h.ready horder).inside⟩
    obtain ⟨lane, hs⟩ := (inv_after h horder).getElem? he
    rw [after_concat, log_visit hs]
    refine ⟨List.pairwise_cons.mpr ⟨?_, hdesc⟩, ?_⟩
    · intro n hn
      obtain ⟨i, hi, e', he', hpos⟩ := hnotes n hn
      obtain ⟨a, b, ha, hb, hab⟩ := (Arena.mem_iff_precedes horder).mp hi
      cases he'.symm.trans ha
      cases he.symm.trans hb
      rw [← hpos]
      exact Edge.position_le_of_compare hab
    · rintro n (_ | ⟨_, hn⟩)
      · exact ⟨place, by simp, e, he, rfl⟩
      · obtain ⟨i, hi, hedge⟩ := hnotes n hn
        exact ⟨i, List.mem_append_left _ hi, hedge⟩

/-- The records of a swept arena ascend, one for each position. -/
theorem pairwise_reserved (h : arena.Linked) :
    (allocate events arena).1.reserved.Pairwise fun m n => m.1 < n.1 := by
  rw [allocate_eq h, reserved]
  have hdesc := (descending_log h _ [] (List.append_nil (sweepOrder events arena)).symm).1
  exact pairwise_foldl_keep hdesc (by simp) List.Pairwise.nil

end Sweep

/-! ### Pieces over a day -/

namespace Arena

variable {events : Array Event} {arena : Arena} {i l : Nat} {e : Edge} {ord : Int}

/-- The lanes of the pieces over the day `ord`. -/
def lanesOver (arena : Arena) (ord : Int) : List Nat :=
  arena.toList.filterMap fun close => do
    let opener ← arena[← close.openedBy]?
    if opener.position ≤ ord ∧ ord < close.position then opener.lane else none

theorem mem_lanesOver : l ∈ arena.lanesOver ord ↔
    ∃ (c o : Nat) (close opener : Edge), arena[c]? = some close ∧ close.openedBy = some o ∧
      arena[o]? = some opener ∧ opener.position ≤ ord ∧ ord < close.position ∧
      opener.lane = some l := by
  simp only [lanesOver, List.mem_filterMap, Array.mem_toList_iff, Array.mem_iff_getElem?]
  constructor
  · rintro ⟨close, ⟨c, hc⟩, hl⟩
    obtain ⟨o, hlink, hl⟩ := Option.bind_eq_some_iff.mp hl
    obtain ⟨opener, ho, hl⟩ := Option.bind_eq_some_iff.mp hl
    split at hl
    next hcov => exact ⟨c, o, close, opener, hc, hlink, ho, hcov.1, hcov.2, hl⟩
    next => cases hl
  · rintro ⟨c, o, close, opener, hc, hlink, ho, hle, hlt, hl⟩
    refine ⟨close, ⟨c, hc⟩, ?_⟩
    simp [hlink, ho, hle, hlt, hl]

/-- A swept arena holds the edges it had, and lanes for those that open a piece. -/
theorem Linked.exists_getElem? (h : arena.Linked)
    (he : (allocate events arena).1.arena[i]? = some e) :
    ∃ e₀, arena[i]? = some e₀ ∧ e = { e₀ with lane := e.lane } ∧
      (e.isOpen = true → e.lane.isSome = true) := by
  obtain ⟨hi, -⟩ := Array.getElem?_eq_some_iff.mp he
  rw [h.size_allocate] at hi
  have he₀ := Array.getElem?_eq_getElem hi
  obtain ⟨lane, hlane, hsome, -⟩ := h.getElem?_allocate he₀
  cases he.symm.trans hlane
  exact ⟨_, he₀, rfl, hsome⟩

/-- What is kept clear on a day is one more than the highest lane over it, or nothing. -/
theorem Linked.reservedAt_eq_sup (h : arena.Linked)
    (hended : ∀ o, arena.Opens o → ∃ c, arena.Closes c o) (ord : Int) :
    (allocate events arena).1.reservedAt ord =
      ((allocate events arena).1.arena.lanesOver ord).toFinset.sup (· + 1) := by
  refine eq_of_forall_ge_iff fun n => ?_
  simp only [h.reservedAt_le_iff, Finset.sup_le_iff, List.mem_toFinset, mem_lanesOver,
    Nat.succ_le_iff]
  constructor
  · rintro hall l ⟨c, o, close, opener, hc, hlink, ho, hle, hlt, hl⟩
    obtain ⟨close₀, hc₀, hclose, -⟩ := h.exists_getElem? hc
    obtain ⟨opener₀, ho₀, hopener, -⟩ := h.exists_getElem? ho
    rw [hclose] at hlink hlt
    rw [hopener] at hle
    have hcovers := h.coversDay ⟨opener₀, close₀, ho₀, hc₀, hlink, rfl, rfl⟩ hle hlt
    refine hall o hcovers l ?_
    rw [laneOf?, Sweep.laneOf?, ho, Option.bind_some, hl]
  · rintro hall o ⟨⟨opener, ho, hopen, hle⟩, hlater⟩ l hl
    obtain ⟨c, close, hc, hlink⟩ := hended o ⟨opener, ho, hopen⟩
    obtain ⟨lane, hc', -⟩ := h.getElem?_allocate hc
    obtain ⟨lane', ho', -⟩ := h.getElem?_allocate ho
    refine hall l ⟨c, o, _, _, hc', hlink, ho', hle, hlater c close hc hlink, ?_⟩
    rwa [laneOf?, Sweep.laneOf?, ho', Option.bind_some] at hl

end Arena

/-! ### Cells -/

namespace Layout

variable {g : Grid} {events : List Event} {l : Layout}

/-- The cell of a day keeps clear one more than the highest lane drawn over it, or nothing. -/
theorem reservedLanes_eq (h : ofEvents g events = .ok l) {cell : DayCell} (hcell : cell ∈ l.days) :
    cell.reservedLanes = (l.segments.filter (·.covers cell.ord)).toFinset.sup (·.lane + 1) := by
  rw [days_eq_map h] at hcell
  obtain ⟨d, -, rfl⟩ := List.mem_map.mp hcell
  refine eq_of_forall_ge_iff fun n => (reservedAt_le_iff h).trans ?_
  simp only [Finset.sup_le_iff, List.mem_toFinset, List.mem_filter, and_imp, Nat.succ_le_iff]
  rfl

/-- Whatever the events are, the sweep of their pieces gives each a lane, and it keeps clear on
every day, by the last of its records, what the lanes over that day need. So does every cell of a
layout. -/
theorem reserved_exact :
    (∀ (g : Grid) (events : List Event),
      (allocate events.toArray (decompose g events)).2 = none ∧
      (∀ e ∈ (swept g events).arena, e.isOpen = true → e.lane.isSome = true) ∧
      ((swept g events).reserved.Pairwise fun m n => m.1 < n.1) ∧
      ∀ ord : Int,
        (swept g events).reservedAt ord = Sweep.recordAt (swept g events).reserved ord ∧
        (swept g events).reservedAt ord =
          ((swept g events).arena.lanesOver ord).toFinset.sup (· + 1)) ∧
    ∀ g events l, ofEvents g events = .ok l → ∀ cell ∈ l.days,
      cell.reservedLanes =
        (l.segments.filter (·.covers cell.ord)).toFinset.sup (·.lane + 1) := by
  refine ⟨?_, fun g events l h cell hcell => reservedLanes_eq h hcell⟩
  intro g events
  have hlinked := linked_decompose g events
  have hended := (Arena.prepared_decompose g events).ended
  refine ⟨allocate_decompose_fault g events, ?_, Sweep.pairwise_reserved hlinked, fun ord =>
    ⟨(Sweep.recordAt_reserved _ ord).symm, hlinked.reservedAt_eq_sup hended ord⟩⟩
  intro e he hopen
  obtain ⟨i, hi⟩ := Array.mem_iff_getElem?.mp he
  obtain ⟨-, -, -, hsome⟩ := hlinked.exists_getElem? hi
  exact hsome hopen

/-- The tenth of March keeps two lanes clear for its two trips. -/
theorem reserved_exact_sample :
    ∃ g l cell, ofEvents g Sample.plan = .ok l ∧ cell ∈ l.days ∧ cell.date = Sample.march 10 ∧
      cell.reservedLanes =
        (l.segments.filter (·.covers cell.ord)).toFinset.sup (·.lane + 1) ∧
      2 ≤ cell.reservedLanes := by
  obtain ⟨g, l, hg, hl, hd⟩ := Sample.exists_layout
  have hcell := List.mem_of_getElem? (getElem?_days hl hd)
  have hexact := reserved_exact.2 g _ l hl _ hcell
  refine ⟨g, l, _, hl, hcell, rfl, hexact, ?_⟩
  have htwo : l.cover (g.ord (Sample.march 10)) = 2 := by
    rw [cover_eq hl]
    cases hg
    decide
  rw [← htwo]
  refine cover_le hl fun s hs hcovers => ?_
  exact (reservedAt_le_iff hl).mp (Nat.le_refl _) s hs hcovers

end Layout

end WallCalendar
