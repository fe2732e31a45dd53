import WallCalendar.Proofs.Lane.Piece
import WallCalendar.Proofs.Lane.Given

/-!
The lanes that a sweep gives to the pieces of bars.

The arena of a list of bars is linked, so its sweep ends and every piece has a lane. Here that
sweep is described by pieces alone, without places: a piece has the least lane that is not taken on
its first day by a piece that comes before it, and the lanes counted and kept clear are bounds of
the lanes of pieces. Whatever is said later about the lanes of a layout follows from these facts.
-/

namespace WallCalendar

open Std

/-! ### The order of pieces -/

namespace Piece

/-- The order in which pieces are opened: by first day, pieces carried over from the week before
first, then as their bars. -/
def compare (p q : Piece) : Ordering :=
  (Ord.compare p.first q.first).then <|
  (Ord.compare p.begins q.begins).then <|
  (Event.compare p.owner q.owner).then <|
  Ord.compare p.index q.index

/-- Whether `p` is opened before `q`. -/
def Before (p q : Piece) : Prop := compare p q = .lt

instance : TransCmp compare :=
  inferInstanceAs <| TransCmp <|
    compareLex (compareOn Piece.first) <|
    compareLex (compareOn Piece.begins) <|
    compareLex (compareOn Piece.owner) <|
    compareOn Piece.index

variable {p q r : Piece}

theorem Before.trans (hpq : p.Before q) (hqr : q.Before r) : p.Before r :=
  TransCmp.lt_trans hpq hqr

theorem Before.irrefl (p : Piece) : ¬ p.Before p := by
  intro h
  have hself : compare p p = .eq := ReflCmp.compare_self
  rw [Before, hself] at h
  cases h

/-- Different pieces of bars never tie. -/
theorem eq_of_compare {g : Grid} {bars : List Event} (hp : p ∈ piecesOf g bars)
    (hq : q ∈ piecesOf g bars) (h : compare p q = .eq) : p = q := by
  simp only [compare, Ordering.then_eq_eq] at h
  exact eq_of_mem_piecesOf hp hq (LawfulEqOrd.eq_of_compare h.2.2.2)
    (LawfulEqOrd.eq_of_compare h.1)

/-- The places of two opening edges only matter when everything else is the same. -/
theorem compare_opening {bars : List Event} (hp : bars[p.index]? = some p.owner)
    (hq : bars[q.index]? = some q.owner) (i j : Nat) :
    Edge.compare bars.toArray (p.opening none) (q.opening none) i j =
      (compare p q).then (Ord.compare i j) := by
  have howner : Ord.compare (some p.owner) (some q.owner) = Event.compare p.owner q.owner := rfl
  simp only [Edge.compare, opening, Edge.isClose, compare, List.getElem?_toArray, hp, hq, howner,
    Option.isSome_none, ReflOrd.compare_self, Ordering.eq_then, Ordering.then_assoc]

end Piece

/-! ### The arena of a list of bars -/

variable {g : Grid} {bars : List Event} {k m : Nat} {p q : Piece}

theorem getElem?_decompose_even (h : (piecesOf g bars)[k]? = some p) :
    (decompose g bars)[2 * k]? = some (p.opening none) := by
  rw [decompose_eq, List.getElem?_toArray, Piece.getElem?_edges_even, h]; rfl

theorem getElem?_decompose_odd (h : (piecesOf g bars)[k]? = some p) :
    (decompose g bars)[2 * k + 1]? = some (p.closing (2 * k)) := by
  rw [decompose_eq, List.getElem?_toArray, Piece.getElem?_edges_odd, h, Nat.zero_add]; rfl

/-- Every edge is one of the two ends of a piece. -/
theorem cases_of_getElem?_decompose {i : Nat} {e : Edge} (h : (decompose g bars)[i]? = some e) :
    ∃ k p, (piecesOf g bars)[k]? = some p ∧
      (i = 2 * k ∧ e = p.opening none ∨ i = 2 * k + 1 ∧ e = p.closing (2 * k)) := by
  rw [decompose_eq, List.getElem?_toArray] at h
  obtain ⟨k, rfl | rfl⟩ : ∃ k, i = 2 * k ∨ i = 2 * k + 1 := ⟨i / 2, by omega⟩
  · rw [Piece.getElem?_edges_even, Option.map_eq_some_iff] at h
    obtain ⟨p, hp, rfl⟩ := h
    exact ⟨k, p, hp, .inl ⟨rfl, rfl⟩⟩
  · rw [Piece.getElem?_edges_odd, Option.map_eq_some_iff, Nat.zero_add] at h
    obtain ⟨p, hp, rfl⟩ := h
    exact ⟨k, p, hp, .inr ⟨rfl, rfl⟩⟩

theorem closes_decompose_iff {c o : Nat} : (decompose g bars).Closes c o ↔
    ∃ k p, (piecesOf g bars)[k]? = some p ∧ o = 2 * k ∧ c = 2 * k + 1 := by
  constructor
  · rintro ⟨e, he, hlink⟩
    obtain ⟨k, p, hp, ⟨rfl, rfl⟩ | ⟨rfl, rfl⟩⟩ := cases_of_getElem?_decompose he
    · cases hlink
    · exact ⟨k, p, hp, (Option.some.inj hlink).symm, rfl⟩
  · rintro ⟨k, p, hp, rfl, rfl⟩
    exact ⟨_, getElem?_decompose_odd hp, rfl⟩

theorem opens_decompose_iff {o : Nat} : (decompose g bars).Opens o ↔
    ∃ k p, (piecesOf g bars)[k]? = some p ∧ o = 2 * k := by
  constructor
  · rintro ⟨e, he, hopen⟩
    obtain ⟨k, p, hp, ⟨rfl, rfl⟩ | ⟨rfl, rfl⟩⟩ := cases_of_getElem?_decompose he
    · exact ⟨k, p, hp, rfl⟩
    · cases hopen
  · rintro ⟨k, p, hp, rfl⟩
    exact ⟨_, getElem?_decompose_even hp, rfl⟩

/-- The arena of a list of bars is linked. -/
theorem linked_decompose (g : Grid) (bars : List Event) : (decompose g bars).Linked := by
  refine ⟨?_, ?_⟩
  · intro c o close hc hlink
    obtain ⟨k, p, hp, ⟨rfl, rfl⟩ | ⟨rfl, rfl⟩⟩ := cases_of_getElem?_decompose hc
    · cases hlink
    · cases hlink
      exact ⟨_, getElem?_decompose_even hp, rfl,
        (partOf_of_mem_piecesOf (List.mem_of_getElem? hp)).nonempty⟩
  · intro c c' o hc hc'
    obtain ⟨k, -, -, hk, rfl⟩ := closes_decompose_iff.mp hc
    obtain ⟨k', -, -, hk', rfl⟩ := closes_decompose_iff.mp hc'
    omega

/-- The two ends of a piece. -/
theorem spans_decompose (hp : (piecesOf g bars)[k]? = some p) :
    (decompose g bars).Spans (2 * k) (2 * k + 1) p.first p.stop :=
  ⟨_, _, getElem?_decompose_even hp, getElem?_decompose_odd hp, rfl, rfl, rfl⟩

theorem coversDay_iff (hp : (piecesOf g bars)[k]? = some p) {ord : Int} :
    (decompose g bars).CoversDay ord (2 * k) ↔ p.covers ord = true := by
  rw [Piece.covers_iff]
  constructor
  · rintro ⟨⟨e, he, -, hle⟩, hclose⟩
    cases (getElem?_decompose_even hp).symm.trans he
    exact ⟨hle, hclose _ _ (getElem?_decompose_odd hp) rfl⟩
  · rintro ⟨hle, hlt⟩
    exact (linked_decompose g bars).coversDay (spans_decompose hp) hle hlt

theorem precedes_iff (hp : (piecesOf g bars)[k]? = some p) (hq : (piecesOf g bars)[m]? = some q) :
    (decompose g bars).Precedes bars.toArray (2 * k) (2 * m) ↔ p.Before q := by
  have hpm := List.mem_of_getElem? hp
  have hqm := List.mem_of_getElem? hq
  have hcompare := Piece.compare_opening (mem_piecesOf.mp hpm).1 (mem_piecesOf.mp hqm).1
    (2 * k) (2 * m)
  constructor
  · rintro ⟨a, b, ha, hb, hlt⟩
    cases (getElem?_decompose_even hp).symm.trans ha
    cases (getElem?_decompose_even hq).symm.trans hb
    rw [hcompare, Ordering.then_eq_lt] at hlt
    rcases hlt with hlt | ⟨heq, hlt⟩
    · exact hlt
    · -- equal pieces stand in one place
      cases Piece.eq_of_compare hpm hqm heq
      have hkm : k = m :=
        (List.getElem?_inj (List.getElem?_eq_some_iff.mp hp).1 (nodup_piecesOf g bars)).mp
          (hp.trans hq.symm)
      simp [hkm] at hlt
  · intro hlt
    refine ⟨_, _, getElem?_decompose_even hp, getElem?_decompose_even hq, ?_⟩
    rw [hcompare, hlt]
    rfl

/-! ### Pieces with their lanes -/

/-- The pieces of bars, each with the lane that the sweep gives it. -/
def assigned (g : Grid) (bars : List Event) : List (Piece × Nat) :=
  (piecesOf g bars).zipIdx.map fun (p, k) =>
    (p, ((decompose g bars).laneOf? bars.toArray (2 * k)).getD 0)

variable {l n : Nat}

theorem allocate_decompose_fault (g : Grid) (bars : List Event) :
    (allocate bars.toArray (decompose g bars)).2 = none := by
  rw [Sweep.allocate_eq (linked_decompose g bars)]

theorem map_fst_assigned (g : Grid) (bars : List Event) :
    (assigned g bars).map Prod.fst = piecesOf g bars := by
  rw [assigned, List.map_map]
  exact List.zipIdx_map_fst 0 _

theorem exists_laneOf? (hp : (piecesOf g bars)[k]? = some p) :
    ∃ l, (decompose g bars).laneOf? bars.toArray (2 * k) = some l :=
  (linked_decompose g bars).exists_lane (spans_decompose hp)

theorem mem_assigned : (p, l) ∈ assigned g bars ↔
    ∃ k, (piecesOf g bars)[k]? = some p ∧
      (decompose g bars).laneOf? bars.toArray (2 * k) = some l := by
  simp only [assigned, List.mem_map, Prod.exists, List.mk_mem_zipIdx_iff_getElem?, Prod.mk.injEq]
  constructor
  · rintro ⟨p', k, hp, rfl, rfl⟩
    obtain ⟨l, hl⟩ := exists_laneOf? hp
    exact ⟨k, hp, by rw [hl]; rfl⟩
  · rintro ⟨k, hp, hl⟩
    exact ⟨p, k, hp, rfl, by rw [hl]; rfl⟩

theorem mem_piecesOf_of_assigned (h : (p, l) ∈ assigned g bars) : p ∈ piecesOf g bars := by
  rw [← map_fst_assigned]
  exact List.mem_map_of_mem h

theorem partOf_of_assigned (h : (p, l) ∈ assigned g bars) :
    p.PartOf true (g.ord p.owner.startDate) (g.ord p.owner.lastDay + 1) :=
  partOf_of_mem_piecesOf (mem_piecesOf_of_assigned h)

theorem exists_mem_assigned (hp : p ∈ piecesOf g bars) : ∃ l, (p, l) ∈ assigned g bars := by
  rw [← map_fst_assigned] at hp
  obtain ⟨⟨p', l⟩, h, rfl⟩ := List.mem_map.mp hp
  exact ⟨l, h⟩

/-- A piece has the least lane not taken on its first day by a piece opened before it. -/
theorem assigned_least (hp : (p, l) ∈ assigned g bars) :
    (∀ q m, (q, m) ∈ assigned g bars → q.Before p → q.covers p.first = true → m ≠ l) ∧
      ∀ m < l, ∃ q, (q, m) ∈ assigned g bars ∧ q.Before p ∧ q.covers p.first = true := by
  obtain ⟨k, hk, hl⟩ := mem_assigned.mp hp
  obtain ⟨l', hl', hfree, hbelow⟩ := (linked_decompose g bars).lane_least
    (opens_decompose_iff.mpr ⟨k, p, hk, rfl⟩)
  cases hl.symm.trans hl'
  have hheld : ∀ {j q}, (piecesOf g bars)[j]? = some q →
      ((decompose g bars).HeldAt bars.toArray (2 * j) (2 * k) ↔
        q.Before p ∧ q.covers p.first = true) := by
    intro j q hj
    rw [Arena.heldAt_iff (getElem?_decompose_even hk) rfl, precedes_iff hj hk, coversDay_iff hj]
    rfl
  refine ⟨?_, ?_⟩
  · rintro q m hq hbefore hcovers rfl
    obtain ⟨j, hj, hm⟩ := mem_assigned.mp hq
    exact hfree _ ((hheld hj).mpr ⟨hbefore, hcovers⟩) hm
  · intro m hm
    obtain ⟨o, ho, hlane⟩ := hbelow m hm
    obtain ⟨j, q, hj, rfl⟩ := opens_decompose_iff.mp ho.1
    exact ⟨q, mem_assigned.mpr ⟨j, hj, hlane⟩, (hheld hj).mp ho⟩

/-- Two pieces that cover the same day have different lanes. -/
theorem assigned_lane_ne {m : Nat} {ord : Int} (hp : (p, l) ∈ assigned g bars)
    (hq : (q, m) ∈ assigned g bars) (hne : p ≠ q) (hpo : p.covers ord = true)
    (hqo : q.covers ord = true) : l ≠ m := by
  obtain ⟨j, hj, hl⟩ := mem_assigned.mp hp
  obtain ⟨k, hk, hm⟩ := mem_assigned.mp hq
  have hjk : j ≠ k := by
    rintro rfl
    exact hne (Option.some.inj (hj.symm.trans hk))
  rw [Piece.covers_iff] at hpo hqo
  have hlane := @Arena.Linked.lane_ne bars.toArray _ _ _ _ (linked_decompose g bars) _ _ _ _ _
    (spans_decompose hj) (spans_decompose hk) (by omega) (by omega) (by omega)
  rw [hl, hm] at hlane
  exact fun h => hlane (congrArg some h)

/-- The lanes counted are the least bound of the lanes of all pieces. -/
theorem laneCount_decompose_le_iff :
    (allocate bars.toArray (decompose g bars)).1.laneCount ≤ n ↔
      ∀ p l, (p, l) ∈ assigned g bars → l < n := by
  rw [(linked_decompose g bars).laneCount_le_iff]
  constructor
  · intro hall p l hp
    obtain ⟨k, hk, hl⟩ := mem_assigned.mp hp
    exact hall _ (opens_decompose_iff.mpr ⟨k, p, hk, rfl⟩) l hl
  · intro hall o ho l hl
    obtain ⟨k, p, hk, rfl⟩ := opens_decompose_iff.mp ho
    exact hall p l (mem_assigned.mpr ⟨k, hk, hl⟩)

/-- The lanes kept clear on a day are the least bound of the lanes of the pieces that cover it. -/
theorem reservedAt_decompose_le_iff {ord : Int} :
    (allocate bars.toArray (decompose g bars)).1.reservedAt ord ≤ n ↔
      ∀ p l, (p, l) ∈ assigned g bars → p.covers ord = true → l < n := by
  rw [(linked_decompose g bars).reservedAt_le_iff]
  constructor
  · intro hall p l hp hcovers
    obtain ⟨k, hk, hl⟩ := mem_assigned.mp hp
    exact hall _ ((coversDay_iff hk).mpr hcovers) l hl
  · rintro hall o ho l hl
    obtain ⟨⟨e, he, hopen, -⟩, -⟩ := id ho
    obtain ⟨k, p, hk, rfl⟩ := opens_decompose_iff.mp ⟨e, he, hopen⟩
    exact hall p l (mem_assigned.mpr ⟨k, hk, hl⟩) ((coversDay_iff hk).mp ho)

/-- The swept arena holds the same pieces, with their lanes. -/
theorem arena_allocate_decompose (g : Grid) (bars : List Event) :
    (allocate bars.toArray (decompose g bars)).1.arena =
      (Piece.edges ((decompose g bars).laneOf? bars.toArray) 0 (piecesOf g bars)).toArray := by
  have hlinked := linked_decompose g bars
  have hinv := Sweep.inv_after hlinked (List.append_nil (sweepOrder bars.toArray _)).symm
  have hlane : ∀ o, (decompose g bars).laneOf? bars.toArray o =
      (Sweep.after (decompose g bars) (sweepOrder bars.toArray (decompose g bars))).laneOf? o :=
    fun o => by rw [Arena.laneOf?, Sweep.allocate_eq hlinked]
  rw [show (allocate bars.toArray (decompose g bars)).1 = _ from
    congrArg Prod.fst (Sweep.allocate_eq hlinked)]
  refine Array.ext_getElem? fun i => Eq.trans ?_ List.getElem?_toArray.symm
  cases he : (decompose g bars)[i]? with
  | none =>
    have hsame := hinv.same i (by rintro - ⟨e, he', -⟩; rw [he] at he'; cases he')
    rw [hsame, he]
    symm
    rw [List.getElem?_eq_none_iff, Piece.length_edges]
    rw [decompose_eq, List.getElem?_toArray, List.getElem?_eq_none_iff, Piece.length_edges] at he
    exact he
  | some e =>
    obtain ⟨k, p, hk, ⟨rfl, rfl⟩ | ⟨rfl, rfl⟩⟩ := cases_of_getElem?_decompose he
    · obtain ⟨l, hl⟩ := hinv.given (2 * k)
        (Arena.mem_sweepOrder.mpr (Array.getElem?_eq_some_iff.mp he).1) _ he rfl
      rw [Piece.getElem?_edges_even, hk, Nat.zero_add, Option.map_some, hlane, Sweep.laneOf?, hl]
      rfl
    · rw [Piece.getElem?_edges_odd, hk, Nat.zero_add, Option.map_some, ← he]
      exact hinv.same _ fun _ ho => ho.not_closes (closes_decompose_iff.mpr ⟨k, p, hk, rfl, rfl⟩)

end WallCalendar
