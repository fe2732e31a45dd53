import Mathlib.Data.List.Nodup
import Mathlib.Data.List.Perm.Subperm
import Mathlib.Data.Option.Basic
import WallCalendar.Proofs.Lane.Assignment

/-!
Which arenas a sweep gets through.

While nothing stops the sweep, an opening edge takes one lane into use, and a closing edge takes one
out of use that was given to its piece before. So an arena that is swept to its end has no more
closing edges than opening ones. If every piece has an end at all, it has then just one, and the
arena is linked. Linked arenas are swept to their end, so there are no others.
-/

namespace WallCalendar

/-! ### Arenas before and after the sweep -/

namespace Arena

variable {events : Array Event} {arena : Arena} {i c o : Nat} {e : Edge}

/-- The place where the piece begins that ends at a place. -/
def opener? (arena : Arena) (place : Nat) : Option Nat := arena[place]?.bind Edge.openedBy

/-- Whether a piece ends at a place. -/
def closesAt (arena : Arena) (place : Nat) : Bool := (arena.opener? place).isSome

/-- Whether a piece begins at a place. -/
def opensAt (arena : Arena) (place : Nat) : Bool := arena[place]?.any Edge.isOpen

theorem opener?_eq_some_iff : arena.opener? c = some o ↔ arena.Closes c o :=
  Option.bind_eq_some_iff

theorem Closes.closesAt (h : arena.Closes c o) : arena.closesAt c = true := by
  rw [Arena.closesAt, opener?_eq_some_iff.mpr h]; rfl

theorem Opens.closesAt (h : arena.Opens o) : arena.closesAt o = false := by
  obtain ⟨e, he, hopen⟩ := h
  simp [Arena.closesAt, opener?, he, hopen]

theorem opensAt_iff : arena.opensAt o = true ↔ arena.Opens o := by
  simp [opensAt, Opens, Edge.isOpen, Option.any_eq_true]

/-- An arena to be swept: no lane is given yet, every edge belongs to an event of the list, and
every piece has an end. -/
structure Prepared (events : Array Event) (arena : Arena) : Prop where
  unset : ∀ e ∈ arena, e.lane = none
  owned : ∀ e ∈ arena, e.event < events.size
  ended : ∀ o, arena.Opens o → ∃ c, arena.Closes c o

/-- The edges can be put in order, and nothing stops the sweep. -/
def Finishes (events : Array Event) (arena : Arena) : Prop :=
  arena.isOrderable events = true ∧ (allocate events arena).2 = none

theorem Prepared.isOrderable (h : arena.Prepared events) : arena.isOrderable events = true :=
  isOrderable_of_owned h.owned

/-- A sweep gives every opening edge a lane and changes nothing else. -/
theorem Linked.getElem?_allocate (h : arena.Linked) (he : arena[i]? = some e) :
    ∃ lane, (allocate events arena).1.arena[i]? = some { e with lane := lane } ∧
      (e.isOpen = true → lane.isSome = true) ∧ (e.isClose = true → lane = e.lane) := by
  have hinv := Sweep.inv_after h (List.append_nil (sweepOrder events arena)).symm
  have hmem : i ∈ sweepOrder events arena :=
    mem_sweepOrder.mpr (Array.getElem?_eq_some_iff.mp he).1
  rw [Sweep.allocate_eq h]
  rcases opens_or_closes (Array.getElem?_eq_some_iff.mp he).1 with ho | ⟨o, hc⟩
  · obtain ⟨e', he', hopen⟩ := id ho
    cases he.symm.trans he'
    obtain ⟨lane, hlane⟩ := hinv.given i hmem e he hopen
    exact ⟨some lane, hlane, fun _ => rfl, by simp [Edge.isClose, hopen]⟩
  · obtain ⟨e', he', hlink⟩ := id hc
    cases he.symm.trans he'
    have hsame := hinv.same i fun _ hopen => hopen.not_closes hc
    exact ⟨e.lane, hsame.trans he, by simp [Edge.isOpen, hlink], fun _ => rfl⟩

theorem Linked.size_allocate (h : arena.Linked) :
    (allocate events arena).1.arena.size = arena.size := by
  rw [Sweep.allocate_eq h]
  exact Sweep.size_foldl_visit _ _

/-- After the last position no piece is left. -/
theorem Linked.reservedAt_of_forall_le (h : arena.Linked)
    (hended : ∀ o, arena.Opens o → ∃ c, arena.Closes c o) {ord : Int}
    (hlast : ∀ e ∈ arena, e.position ≤ ord) : (allocate events arena).1.reservedAt ord = 0 := by
  rw [← Nat.le_zero, h.reservedAt_le_iff]
  rintro o ⟨⟨e, he, hopen, -⟩, hlater⟩
  obtain ⟨c, close, hc, hlink⟩ := hended o ⟨e, he, hopen⟩
  exact absurd (hlater c close hc hlink) (Int.not_lt.mpr (hlast close (Array.mem_of_getElem? hc)))

end Arena

/-! ### Counting lanes -/

namespace Sweep

variable {events : Array Event} {arena : Arena} {done rest : List Nat} {s : Sweep}
  {place o : Nat} {e : Edge}

/-- A closing edge that does not stop the sweep ends a piece whose lane is in use. -/
theorem lane_of_fault? (he : s.arena[place]? = some e) (hlink : e.openedBy = some o)
    (hok : s.fault? place = none) : ∃ l, s.laneOf? o = some l ∧ l ∈ s.busy := by
  simp only [fault?, he, Option.bind_some, hlink] at hok
  split at hok
  · cases hok
  · split at hok
    · cases hok
    next l hl =>
      refine ⟨l, hl, ?_⟩
      simpa using hok

/-- What an arena without lanes looks like after the places `done`, none of which stopped the sweep:
lanes are given to visited opening edges only, every closing edge came after the opening edge it
names, and there are as many lanes in use as there are more opening edges than closing ones. -/
structure Tally (events : Array Event) (arena : Arena) (done : List Nat) (s : Sweep) : Prop where
  frame : ∀ {i : Nat} {e : Edge}, arena[i]? = some e →
    ∃ lane, s.arena[i]? = some { e with lane := lane }
  laned : ∀ {o l}, s.laneOf? o = some l → o ∈ done ∧ arena.Opens o
  closed : ∀ {c o}, c ∈ done → arena.Closes c o → arena.Opens o ∧ arena.Precedes events o c
  count : s.busy.length + done.countP arena.closesAt = done.countP arena.opensAt

theorem tally_start (h : ∀ e ∈ arena, e.lane = none) : Tally events arena [] (start arena) where
  frame {i e} he := ⟨e.lane, he⟩
  laned {o l} hl := by
    obtain ⟨e, he, hlane⟩ := Option.bind_eq_some_iff.mp hl
    rw [h e (Array.mem_of_getElem? he)] at hlane
    cases hlane
  closed hc := absurd hc List.not_mem_nil
  count := rfl

theorem Tally.frame_visit (h : Tally events arena done s) (place : Nat) {i : Nat} {e : Edge}
    (he : arena[i]? = some e) :
    ∃ lane, (s.visit place).arena[i]? = some { e with lane := lane } := by
  obtain ⟨lane, hs⟩ := h.frame he
  obtain ⟨lane', hvisit⟩ := getElem?_visit place hs
  exact ⟨lane', hvisit⟩

/-- An opening edge takes one lane into use. -/
theorem tally_visit_open (h : Tally events arena done s) (ho : arena.Opens place) :
    Tally events arena (done ++ [place]) (s.visit place) := by
  obtain ⟨e, he, hopen⟩ := id ho
  obtain ⟨lane, hs⟩ := h.frame he
  have hbusy : (s.visit place).busy = insertLane (lowestFree s.busy) s.busy := by
    rw [Sweep.visit_open hs hopen]; rfl
  refine ⟨h.frame_visit place, ?laned, ?closed, ?count⟩
  case laned =>
    intro p l hl
    by_cases hp : p = place
    · subst hp
      exact ⟨by simp, ho⟩
    · rw [laneOf?_visit_of_ne hp] at hl
      exact ⟨List.mem_append_left _ (h.laned hl).1, (h.laned hl).2⟩
  case closed =>
    intro c p hc hclose
    rcases List.mem_append.mp hc with hc | hc
    · exact h.closed hc hclose
    · rw [List.mem_singleton.mp hc] at hclose
      exact absurd hclose ho.not_closes
  case count =>
    rw [hbusy, length_insertLane, List.countP_append, List.countP_append, List.countP_singleton,
      List.countP_singleton, ho.closesAt, Arena.opensAt_iff.mpr ho, ← h.count]
    simp only [Bool.false_eq_true, if_false, if_true]
    omega

/-- A closing edge that does not stop the sweep takes one lane out of use. -/
theorem tally_visit_close (h : Tally events arena done s)
    (horder : sweepOrder events arena = done ++ place :: rest) (hclose : arena.Closes place o)
    (hok : s.fault? place = none) : Tally events arena (done ++ [place]) (s.visit place) := by
  obtain ⟨e, he, hlink⟩ := id hclose
  obtain ⟨lane, hs⟩ := h.frame he
  obtain ⟨l, hl, hmem⟩ := lane_of_fault? hs hlink hok
  have hvisit := Sweep.visit_close hs hlink hl
  have harena : (s.visit place).arena = s.arena := by rw [hvisit]; rfl
  have hbusy : (s.visit place).busy = s.busy.erase l := by rw [hvisit]; rfl
  refine ⟨h.frame_visit place, ?laned, ?closed, ?count⟩
  case laned =>
    intro p l' hl'
    rw [laneOf?, harena] at hl'
    exact ⟨List.mem_append_left _ (h.laned hl').1, (h.laned hl').2⟩
  case closed =>
    intro c p hc hclose'
    rcases List.mem_append.mp hc with hc | hc
    · exact h.closed hc hclose'
    · -- the piece has a lane, so it began at a place visited before
      rw [List.mem_singleton.mp hc] at hclose' ⊢
      rw [← Arena.opener?_eq_some_iff] at hclose hclose'
      cases hclose.symm.trans hclose'
      exact ⟨(h.laned hl).2, (Arena.mem_iff_precedes horder).mp (h.laned hl).1⟩
  case count =>
    have hopens : ¬ arena.opensAt place = true := fun h => hclose.not_opens (Arena.opensAt_iff.mp h)
    have hpos := List.length_pos_of_mem hmem
    rw [hbusy, List.length_erase_of_mem hmem, List.countP_append, List.countP_append,
      List.countP_singleton, List.countP_singleton, if_pos hclose.closesAt, if_neg hopens,
      ← h.count]
    omega

theorem tally_visit (h : Tally events arena done s)
    (horder : sweepOrder events arena = done ++ place :: rest) (hok : s.fault? place = none) :
    Tally events arena (done ++ [place]) (s.visit place) := by
  have hinside : place < arena.size := Arena.mem_sweepOrder.mp (by rw [horder]; simp)
  rcases Arena.opens_or_closes hinside with ho | ⟨o, hc⟩
  · exact tally_visit_open h ho
  · exact tally_visit_close h horder hc hok

/-- The tally is kept as long as nothing stops the sweep. -/
theorem tally_run : ∀ (more done : List Nat) (s : Sweep),
    sweepOrder events arena = done ++ more → Tally events arena done s → (s.run more).2 = none →
      Tally events arena (done ++ more) (s.run more).1
  | [], done, s, _, h, _ => by rwa [List.append_nil]
  | place :: more, done, s, horder, h, hrun => by
      rw [run] at hrun ⊢
      split at hrun
      · cases hrun
      next hok =>
        have hrec := tally_run more (done ++ [place]) (s.visit place) (by simpa using horder)
          (tally_visit h horder hok) hrun
        simpa using hrec

end Sweep

/-! ### Swept to the end -/

namespace Arena

variable {events : Array Event} {arena : Arena} {c o : Nat}

/-- If there are no more ends than pieces and every piece has an end, no piece ends twice. -/
theorem closes_once (hended : ∀ o, arena.Opens o → ∃ c, arena.Closes c o)
    (hcount : (sweepOrder events arena).countP arena.closesAt ≤
      (sweepOrder events arena).countP arena.opensAt)
    {c c' o : Nat} (hc : arena.Closes c o) (hc' : arena.Closes c' o) : c = c' := by
  have hmem : ∀ {c o}, arena.Closes c o → c ∈ (sweepOrder events arena).filter arena.closesAt := by
    intro c o hc
    obtain ⟨e, he, -⟩ := id hc
    exact List.mem_filter.mpr
      ⟨mem_sweepOrder.mpr (Array.getElem?_eq_some_iff.mp he).1, hc.closesAt⟩
  have hnodup : (((sweepOrder events arena).filter arena.opensAt).map some).Nodup :=
    ((nodup_sweepOrder events arena).filter _).map (Option.some_injective _)
  have hsub : ((sweepOrder events arena).filter arena.opensAt).map some ⊆
      ((sweepOrder events arena).filter arena.closesAt).map arena.opener? := by
    intro link hlink
    obtain ⟨o, ho, rfl⟩ := List.mem_map.mp hlink
    obtain ⟨c, hc⟩ := hended o (opensAt_iff.mp (List.mem_filter.mp ho).2)
    exact List.mem_map.mpr ⟨c, hmem hc, opener?_eq_some_iff.mpr hc⟩
  -- the links of the ends hold every piece and are no more than the pieces, so they are the pieces
  have hperm := (List.subperm_of_subset hnodup hsub).perm_of_length_le (by
    simpa only [List.length_map, ← List.countP_eq_length_filter] using hcount)
  have hlinks := hperm.nodup_iff.mp hnodup
  refine List.inj_on_of_nodup_map hlinks (hmem hc) (hmem hc') ?_
  rw [opener?_eq_some_iff.mpr hc, opener?_eq_some_iff.mpr hc']

/-- An arena that is swept to its end is linked. -/
theorem Prepared.linked (h : arena.Prepared events) (hfault : (allocate events arena).2 = none) :
    arena.Linked := by
  have htally := Sweep.tally_run (sweepOrder events arena) [] (Sweep.start arena) rfl
    (Sweep.tally_start h.unset) hfault
  rw [List.nil_append] at htally
  have hcount : (sweepOrder events arena).countP arena.closesAt ≤
      (sweepOrder events arena).countP arena.opensAt := by
    rw [← htally.count]
    exact Nat.le_add_left ..
  refine ⟨?_, closes_once h.ended hcount⟩
  intro c o close hc hlink
  have hmem : c ∈ sweepOrder events arena :=
    mem_sweepOrder.mpr (Array.getElem?_eq_some_iff.mp hc).1
  obtain ⟨⟨opener, ho, hopen⟩, opener', close', ho', hc', hlt⟩ :=
    htally.closed hmem ⟨close, hc, hlink⟩
  cases ho.symm.trans ho'
  cases hc.symm.trans hc'
  exact ⟨opener, ho, hopen, Edge.position_lt_of_compare hlt hopen (by rw [hlink]; rfl)⟩

/-- The arena of a list of bars can be swept. -/
theorem prepared_decompose (g : Grid) (bars : List Event) :
    (decompose g bars).Prepared bars.toArray where
  unset e he := by
    obtain ⟨i, hi⟩ := Array.mem_iff_getElem?.mp he
    obtain ⟨k, p, hk, ⟨-, rfl⟩ | ⟨-, rfl⟩⟩ := cases_of_getElem?_decompose hi <;> rfl
  owned e he := by
    obtain ⟨i, hi⟩ := Array.mem_iff_getElem?.mp he
    obtain ⟨k, p, hk, hedge⟩ := cases_of_getElem?_decompose hi
    have howner := (mem_piecesOf.mp (List.mem_of_getElem? hk)).1
    have hindex : p.index < bars.length := (List.getElem?_eq_some_iff.mp howner).1
    rw [List.size_toArray]
    rcases hedge with ⟨-, rfl⟩ | ⟨-, rfl⟩ <;> exact hindex
  ended o ho := by
    obtain ⟨k, p, hk, rfl⟩ := opens_decompose_iff.mp ho
    exact ⟨2 * k + 1, closes_decompose_iff.mpr ⟨k, p, hk, rfl, rfl⟩⟩

/-- Linked arenas, and no others, are swept to their end. -/
theorem Prepared.finishes_iff (h : arena.Prepared events) :
    arena.Finishes events ↔ arena.Linked := by
  constructor
  · intro hfinishes
    exact h.linked hfinishes.2
  · intro hlinked
    exact ⟨h.isOrderable, by rw [Sweep.allocate_eq hlinked]⟩

theorem finishes_decompose (g : Grid) (bars : List Event) :
    (decompose g bars).Finishes bars.toArray :=
  (prepared_decompose g bars).finishes_iff.mpr (linked_decompose g bars)

/-- An arena to be swept is swept to its end just when it is linked. Then every opening edge has a
lane, nothing is kept clear from the last position on, and all else is as it was. The arena of a
list of bars is always swept to its end. -/
theorem finishes_iff_linked :
    (∀ (events : Array Event) (arena : Arena), arena.Prepared events →
      (arena.Finishes events ↔ arena.Linked) ∧
      (arena.Finishes events →
        (allocate events arena).1.arena.size = arena.size ∧
        (∀ {i : Nat} {e : Edge}, arena[i]? = some e →
          ∃ lane, (allocate events arena).1.arena[i]? = some { e with lane := lane } ∧
            (e.isOpen = true → lane.isSome = true) ∧ (e.isClose = true → lane = e.lane)) ∧
        ∀ ord : Int, (∀ e ∈ arena, e.position ≤ ord) →
          (allocate events arena).1.reservedAt ord = 0)) ∧
    ∀ g bars, (decompose g bars).Prepared bars.toArray ∧
      (decompose g bars).Finishes bars.toArray := by
  refine ⟨?_, fun g bars => ⟨prepared_decompose g bars, finishes_decompose g bars⟩⟩
  intro events arena h
  refine ⟨h.finishes_iff, fun hfinishes => ?_⟩
  have hlinked := h.finishes_iff.mp hfinishes
  exact ⟨hlinked.size_allocate, hlinked.getElem?_allocate,
    fun ord hlast => hlinked.reservedAt_of_forall_le h.ended hlast⟩

/-- A bar of one day. -/
def sampleBar : Event :=
  ⟨⟨"Fair", none, none, none, []⟩,
    .days ((Date.ofNumber? 70).get rfl) ((Date.ofNumber? 71).get rfl)⟩

/-- Two pieces, the second in the lane that the first gives back. -/
def sampleChain : Arena :=
  #[.opening 0 0 true, .closing 2 0 0 false, .opening 2 0 false, .closing 5 0 2 true]

/-- The same pieces, with a second end for the first while the other has its lane. -/
def sampleDouble : Arena := sampleChain.push (.closing 3 0 0 true)

theorem finishes_iff_linked_sample :
    sampleChain.Prepared #[sampleBar] ∧ sampleChain.Finishes #[sampleBar] ∧
      (allocate #[sampleBar] sampleChain).1.reservedAt 5 = 0 ∧
      sampleDouble.Prepared #[sampleBar] ∧ ¬ sampleDouble.Finishes #[sampleBar] := by
  have hchain : sampleChain.Prepared #[sampleBar] := by
    refine ⟨by decide, by decide, ?_⟩
    rintro o ⟨e, he, hopen⟩
    match o, he with
    | 0, _ => exact ⟨1, _, rfl, rfl⟩
    | 2, _ => exact ⟨3, _, rfl, rfl⟩
    | 1, rfl | 3, rfl => cases hopen
  have hnext : ∀ {c o}, sampleChain.Closes c o → c = o + 1 := by
    rintro c o ⟨e, he, hlink⟩
    match c, he with
    | 1, rfl | 3, rfl => cases hlink; rfl
    | 0, rfl | 2, rfl => cases hlink
  have hlinked : sampleChain.Linked := by
    refine ⟨?_, ?_⟩
    · intro c o close hc hlink
      match c, hc with
      | 1, rfl | 3, rfl => cases hlink; exact ⟨_, rfl, rfl, by decide⟩
      | 0, rfl | 2, rfl => cases hlink
    · intro c c' o hc hc'
      rw [hnext hc, hnext hc']
  have hdouble : sampleDouble.Prepared #[sampleBar] := by
    refine ⟨by decide, by decide, ?_⟩
    rintro o ⟨e, he, hopen⟩
    match o, he with
    | 0, _ => exact ⟨1, _, rfl, rfl⟩
    | 2, _ => exact ⟨3, _, rfl, rfl⟩
    | 1, rfl | 3, rfl | 4, rfl => cases hopen
  obtain ⟨hiff, hrest⟩ := finishes_iff_linked.1 _ _ hchain
  have hfinishes := hiff.mpr hlinked
  refine ⟨hchain, hfinishes, (hrest hfinishes).2.2 5 (by decide), hdouble, ?_⟩
  intro hdone
  have hfirst : sampleDouble.Closes 1 0 := ⟨_, rfl, rfl⟩
  have hsecond : sampleDouble.Closes 4 0 := ⟨_, rfl, rfl⟩
  have honce := ((finishes_iff_linked.1 _ _ hdouble).1.mp hdone).once hfirst hsecond
  cases honce

end Arena

end WallCalendar
