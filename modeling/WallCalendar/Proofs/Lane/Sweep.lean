import WallCalendar.Proofs.Lane.Busy
import WallCalendar.Proofs.Lane.Order

/-!
What a sweep does to an arena whose edges are linked.

After any part of the order has been visited, the lanes in use are just those of the pieces opened
and not yet closed, one lane each. So a linked arena never stops the sweep.
-/

namespace WallCalendar

/-! ### Links between edges -/

namespace Arena

variable {events : Array Event} {arena : Arena} {done rest : List Nat} {place c o p : Nat}

/-- A piece begins at place `o`. -/
def Opens (arena : Arena) (o : Nat) : Prop := ∃ e, arena[o]? = some e ∧ e.openedBy = none

/-- The piece that begins at place `o` ends at place `c`. -/
def Closes (arena : Arena) (c o : Nat) : Prop := ∃ e, arena[c]? = some e ∧ e.openedBy = some o

/-- Every closing edge ends a piece that begins at a smaller position, and no piece ends twice. -/
structure Linked (arena : Arena) : Prop where
  opener : ∀ {c o : Nat} {close : Edge}, arena[c]? = some close → close.openedBy = some o →
    ∃ opener, arena[o]? = some opener ∧ opener.openedBy = none ∧ opener.position < close.position
  once : ∀ {c c' o : Nat}, arena.Closes c o → arena.Closes c' o → c = c'

/-- The piece that begins at place `o` is open when the places `done` have been visited. -/
def Active (arena : Arena) (done : List Nat) (o : Nat) : Prop :=
  o ∈ done ∧ arena.Opens o ∧ ∀ c ∈ done, ¬ arena.Closes c o

/-- What the sweep can rely on when it comes to `place` after `done`. -/
structure Ready (arena : Arena) (done : List Nat) (place : Nat) : Prop where
  inside : place < arena.size
  fresh : place ∉ done
  unclosed : ∀ c ∈ done, ¬ arena.Closes c place
  active : ∀ {o}, arena.Closes place o → arena.Active done o

theorem Opens.not_closes (h : arena.Opens p) : ¬ arena.Closes p o := by
  rintro ⟨e, he, hclose⟩
  obtain ⟨e', he', hopen⟩ := h
  cases he.symm.trans he'
  rw [hopen] at hclose
  cases hclose

theorem Closes.not_opens (h : arena.Closes c o) : ¬ arena.Opens c := fun ho => ho.not_closes h

theorem opens_or_closes (h : place < arena.size) :
    arena.Opens place ∨ ∃ o, arena.Closes place o := by
  have he := Array.getElem?_eq_getElem h
  cases ho : (arena[place]).openedBy with
  | none => exact .inl ⟨_, he, ho⟩
  | some o => exact .inr ⟨o, _, he, ho⟩

theorem Linked.opens (h : arena.Linked) (hc : arena.Closes c o) : arena.Opens o := by
  obtain ⟨close, hclose, hlink⟩ := hc
  obtain ⟨opener, ho, hopen, -⟩ := h.opener hclose hlink
  exact ⟨opener, ho, hopen⟩

/-- A piece begins before it ends. -/
theorem Linked.precedes (h : arena.Linked) (hc : arena.Closes c o) :
    arena.Precedes events o c := by
  obtain ⟨close, hclose, hlink⟩ := hc
  obtain ⟨opener, ho, -, hlt⟩ := h.opener hclose hlink
  exact ⟨opener, close, ho, hclose, Edge.compare_of_position_lt hlt⟩

/-- A linked arena is ready at every place the sweep comes to. -/
theorem Linked.ready (h : arena.Linked) (hsplit : sweepOrder events arena = done ++ place :: rest) :
    arena.Ready done place := by
  have hmem : place ∈ sweepOrder events arena := by rw [hsplit]; simp
  refine ⟨mem_sweepOrder.mp hmem, ?_, ?_, ?_⟩
  · intro hplace
    exact ((mem_iff_precedes hsplit).mp hplace).ne rfl
  · intro c hc hclose
    exact ((mem_iff_precedes hsplit).mp hc).asymm (h.precedes hclose)
  · intro o hclose
    refine ⟨(mem_iff_precedes hsplit).mpr (h.precedes hclose), h.opens hclose, ?_⟩
    intro c hc hclose'
    -- another edge that ends the same piece would be this very place
    cases h.once hclose hclose'
    exact ((mem_iff_precedes hsplit).mp hc).ne rfl

theorem active_append_open (hr : arena.Ready done place) (ho : arena.Opens place) :
    arena.Active (done ++ [place]) p ↔ p = place ∨ arena.Active done p := by
  constructor
  · rintro ⟨hmem, hopen, hnone⟩
    rcases List.mem_append.mp hmem with hp | hp
    · exact .inr ⟨hp, hopen, fun c hc => hnone c (List.mem_append_left _ hc)⟩
    · exact .inl (List.mem_singleton.mp hp)
  · rintro (rfl | ⟨hmem, hopen, hnone⟩)
    · refine ⟨List.mem_append_right _ (List.mem_singleton_self p), ho, ?_⟩
      intro c hc
      rcases List.mem_append.mp hc with hc | hc
      · exact hr.unclosed c hc
      · rw [List.mem_singleton.mp hc]
        exact ho.not_closes
    · refine ⟨List.mem_append_left _ hmem, hopen, ?_⟩
      intro c hc
      rcases List.mem_append.mp hc with hc | hc
      · exact hnone c hc
      · rw [List.mem_singleton.mp hc]
        exact ho.not_closes

theorem active_append_close (hc : arena.Closes place o) :
    arena.Active (done ++ [place]) p ↔ arena.Active done p ∧ p ≠ o := by
  constructor
  · rintro ⟨hmem, hopen, hnone⟩
    rcases List.mem_append.mp hmem with hp | hp
    · refine ⟨⟨hp, hopen, fun c hc => hnone c (List.mem_append_left _ hc)⟩, ?_⟩
      rintro rfl
      exact hnone place (List.mem_append_right _ (List.mem_singleton_self place)) hc
    · rw [List.mem_singleton.mp hp] at hopen
      exact absurd hopen hc.not_opens
  · rintro ⟨⟨hmem, hopen, hnone⟩, hne⟩
    refine ⟨List.mem_append_left _ hmem, hopen, ?_⟩
    intro c' hc' hclose
    rcases List.mem_append.mp hc' with hmem' | hmem'
    · exact hnone c' hmem' hclose
    · rw [List.mem_singleton.mp hmem'] at hclose
      obtain ⟨e, he, hlink⟩ := hc
      obtain ⟨e', he', hlink'⟩ := hclose
      cases he.symm.trans he'
      rw [hlink] at hlink'
      exact hne (Option.some.inj hlink').symm

end Arena

/-! ### One visit -/

namespace Sweep

variable {events : Array Event} {arena : Arena} {done rest : List Nat} {s : Sweep}
  {place o l : Nat} {e : Edge}

theorem visit_open (he : s.arena[place]? = some e) (ho : e.openedBy = none) :
    s.visit place = (s.openLane place).note e.position := by
  simp only [visit, he, ho]

theorem visit_close (he : s.arena[place]? = some e) (hc : e.openedBy = some o)
    (hl : s.laneOf? o = some l) :
    s.visit place = note { s with busy := s.busy.erase l } e.position := by
  simp only [visit, he, hc, freeLane, hl]

/-- A visit touches no edge but the one it visits. -/
theorem getElem?_visit_of_ne {i : Nat} (h : i ≠ place) :
    (s.visit place).arena[i]? = s.arena[i]? := by
  unfold visit
  split
  · rfl
  · split
    · simp [note, openLane, Array.getElem?_modify, Ne.symm h]
    · simp only [note, freeLane]
      split <;> rfl

theorem laneOf?_visit_of_ne (h : o ≠ place) : (s.visit place).laneOf? o = s.laneOf? o := by
  rw [laneOf?, getElem?_visit_of_ne h, laneOf?]

/-- Once a place has been visited its lane stays. -/
theorem laneOf?_foldl_visit : ∀ {rest : List Nat} {s : Sweep}, o ∉ rest →
    (rest.foldl visit s).laneOf? o = s.laneOf? o
  | [], _, _ => rfl
  | place :: rest, s, h => by
      rw [List.mem_cons, not_or] at h
      rw [List.foldl_cons, laneOf?_foldl_visit h.2, laneOf?_visit_of_ne h.1]

theorem getElem?_visit_open (he : s.arena[place]? = some e) (ho : e.openedBy = none) :
    (s.visit place).arena[place]? = some { e with lane := some (lowestFree s.busy) } := by
  rw [visit_open he ho]
  simp [note, openLane, Array.getElem?_modify, he]

/-- A visit changes nothing but a lane. -/
theorem getElem?_visit (place : Nat) {i : Nat} (he : s.arena[i]? = some e) :
    ∃ lane, (s.visit place).arena[i]? = some { e with lane := lane } := by
  by_cases hi : i = place
  · subst hi
    rcases Option.eq_none_or_eq_some e.openedBy with ho | ⟨o, ho⟩
    · exact ⟨_, getElem?_visit_open he ho⟩
    · have harena : (s.visit i).arena = s.arena := by
        simp only [visit, he, ho, note, freeLane]
        split <;> rfl
      exact ⟨e.lane, by rw [harena, he]⟩
  · exact ⟨e.lane, by rw [getElem?_visit_of_ne hi, he]⟩

theorem size_visit (s : Sweep) (place : Nat) : (s.visit place).arena.size = s.arena.size := by
  unfold visit
  split
  · rfl
  · split
    · simp [note, openLane]
    · simp only [note, freeLane]
      split <;> rfl

/-- Visits add no edge and take none away. -/
theorem size_foldl_visit : ∀ (rest : List Nat) (s : Sweep),
    (rest.foldl visit s).arena.size = s.arena.size
  | [], _ => rfl
  | place :: rest, s => by rw [List.foldl_cons, size_foldl_visit, size_visit]

theorem position_of_visit {i : Nat} {e' : Edge} (h : (s.visit place).arena[i]? = some e') :
    ∃ e, s.arena[i]? = some e ∧ e.position = e'.position := by
  by_cases hi : i = place
  · subst hi
    unfold visit at h
    split at h
    · exact ⟨e', h, rfl⟩
    next e he =>
      refine ⟨e, he, ?_⟩
      split at h
      · simp [note, openLane, Array.getElem?_modify, he] at h
        rw [← h]
      · simp only [note, freeLane] at h
        split at h <;> cases he.symm.trans h <;> rfl
  · rw [getElem?_visit_of_ne hi] at h
    exact ⟨e', h, rfl⟩

theorem log_visit (he : s.arena[place]? = some e) :
    (s.visit place).log = (e.position, watermark (s.visit place).busy) :: s.log := by
  simp only [visit, he]
  split
  · rfl
  · simp only [note, freeLane]
    split <;> rfl

theorem reservedAt_visit_of_le {ord : Int} (he : s.arena[place]? = some e)
    (hle : e.position ≤ ord) : (s.visit place).reservedAt ord = watermark (s.visit place).busy := by
  simp [reservedAt, log_visit he, hle]

theorem reservedAt_visit_of_lt {ord : Int} (he : s.arena[place]? = some e)
    (hlt : ord < e.position) : (s.visit place).reservedAt ord = s.reservedAt ord := by
  simp [reservedAt, log_visit he, Int.not_le.mpr hlt]

/-- Edges after a day say nothing about it. -/
theorem reservedAt_foldl_visit {ord : Int} : ∀ {rest : List Nat} {s : Sweep},
    (∀ i ∈ rest, ∀ e, s.arena[i]? = some e → ord < e.position) →
      (rest.foldl visit s).reservedAt ord = s.reservedAt ord
  | [], _, _ => rfl
  | place :: rest, s, h => by
      rw [List.foldl_cons, reservedAt_foldl_visit]
      · cases he : s.arena[place]? with
        | none => simp only [visit, he]
        | some e => exact reservedAt_visit_of_lt he (h place (List.mem_cons_self ..) e he)
      · intro i hi e' he'
        obtain ⟨e, he, hpos⟩ := position_of_visit he'
        rw [← hpos]
        exact h i (List.mem_cons_of_mem _ hi) e he

/-! ### The invariant -/

/-- The lanes in use are those of the active pieces, one each, after the places `done`. -/
structure Inv (arena : Arena) (done : List Nat) (s : Sweep) : Prop where
  same : ∀ i, (i ∈ done → ¬ arena.Opens i) → s.arena[i]? = arena[i]?
  given : ∀ i ∈ done, ∀ e, arena[i]? = some e → e.openedBy = none →
    ∃ lane, s.arena[i]? = some { e with lane := some lane }
  ascending : s.busy.Pairwise (· < ·)
  busy : ∀ l, l ∈ s.busy ↔ ∃ o, arena.Active done o ∧ s.laneOf? o = some l
  apart : ∀ o o', arena.Active done o → arena.Active done o' → s.laneOf? o = s.laneOf? o' → o = o'
  count : ∀ n, s.laneCount ≤ n ↔ ∀ o ∈ done, arena.Opens o → ∀ l, s.laneOf? o = some l → l < n

theorem inv_start (arena : Arena) : Inv arena [] (start arena) := by
  have hnone : ∀ o, ¬ arena.Active [] o := fun o ho => List.not_mem_nil ho.1
  refine ⟨fun _ _ => rfl, fun i hi => absurd hi List.not_mem_nil, List.Pairwise.nil, ?_, ?_, ?_⟩
  · intro l
    simp [start, hnone]
  · intro o o' ho
    exact absurd ho (hnone o)
  · intro n
    simp [start]

/-- Only lanes differ from the arena that the sweep started with. -/
theorem Inv.getElem? (h : Inv arena done s) (he : arena[place]? = some e) :
    ∃ lane, s.arena[place]? = some { e with lane := lane } := by
  by_cases hd : place ∈ done ∧ e.openedBy = none
  · obtain ⟨lane, hlane⟩ := h.given place hd.1 e he hd.2
    exact ⟨some lane, hlane⟩
  · refine ⟨e.lane, ?_⟩
    rw [h.same place, he]
    rintro hmem ⟨e', he', ho'⟩
    cases he.symm.trans he'
    exact hd ⟨hmem, ho'⟩

/-- An active piece has a lane, and it is in use. -/
theorem Inv.lane_of_active (h : Inv arena done s) (ho : arena.Active done o) :
    ∃ l, s.laneOf? o = some l ∧ l ∈ s.busy := by
  obtain ⟨e, he, hopen⟩ := ho.2.1
  obtain ⟨l, hl⟩ := h.given o ho.1 e he hopen
  have hlane : s.laneOf? o = some l := by rw [laneOf?, hl]; rfl
  exact ⟨l, hlane, (h.busy l).mpr ⟨o, ho, hlane⟩⟩

/-! ### Opening a piece -/

section Opening

variable (h : Inv arena done s) (hr : arena.Ready done place) (ho : arena.Opens place)
include h hr ho

/-- Opening a piece takes the least free lane for it. -/
theorem Inv.visit_open : (s.visit place).laneOf? place = some (lowestFree s.busy) ∧
    (s.visit place).busy = insertLane (lowestFree s.busy) s.busy ∧
    (s.visit place).laneCount = max s.laneCount (lowestFree s.busy + 1) := by
  obtain ⟨e, he, hopen⟩ := ho
  have hs : s.arena[place]? = some e := by
    rw [h.same place fun hmem => absurd hmem hr.fresh, he]
  refine ⟨?_, ?_, ?_⟩
  · rw [laneOf?, getElem?_visit_open hs hopen]; rfl
  · rw [Sweep.visit_open hs hopen]; rfl
  · rw [Sweep.visit_open hs hopen]; rfl

omit h ho in
/-- No piece visited before changes its lane. -/
theorem laneOf?_visit_of_mem {p : Nat} (hp : p ∈ done) :
    (s.visit place).laneOf? p = s.laneOf? p :=
  laneOf?_visit_of_ne fun heq => hr.fresh (heq ▸ hp)

theorem Inv.given_visit_open {i : Nat} (hi : i ∈ done ++ [place]) (he : arena[i]? = some e)
    (hopen : e.openedBy = none) :
    ∃ lane, (s.visit place).arena[i]? = some { e with lane := some lane } := by
  by_cases heq : i = place
  · subst heq
    have hs : s.arena[i]? = some e := by
      rw [h.same i fun hmem => absurd hmem hr.fresh, he]
    exact ⟨_, getElem?_visit_open hs hopen⟩
  · rw [getElem?_visit_of_ne heq]
    exact h.given i (by simpa [heq] using hi) e he hopen

theorem Inv.mem_busy_visit_open {l : Nat} : l ∈ (s.visit place).busy ↔
    ∃ p, arena.Active (done ++ [place]) p ∧ (s.visit place).laneOf? p = some l := by
  obtain ⟨hnew, hbusy, -⟩ := h.visit_open hr ho
  rw [hbusy, mem_insertLane, h.busy]
  constructor
  · rintro (rfl | ⟨p, hp, hl⟩)
    · exact ⟨place, (Arena.active_append_open hr ho).mpr (.inl rfl), hnew⟩
    · refine ⟨p, (Arena.active_append_open hr ho).mpr (.inr hp), ?_⟩
      rw [laneOf?_visit_of_mem hr hp.1, hl]
  · rintro ⟨p, hp, hl⟩
    rcases (Arena.active_append_open hr ho).mp hp with rfl | hp
    · exact .inl (Option.some.inj (hl.symm.trans hnew))
    · rw [laneOf?_visit_of_mem hr hp.1] at hl
      exact .inr ⟨p, hp, hl⟩

/-- The new lane is free, so no piece that is still open has it. -/
theorem Inv.laneOf?_visit_open_ne {p : Nat} (hp : arena.Active done p) :
    (s.visit place).laneOf? p ≠ (s.visit place).laneOf? place := by
  rw [laneOf?_visit_of_mem hr hp.1, (h.visit_open hr ho).1]
  exact fun hl => lowestFree_notMem h.ascending ((h.busy _).mpr ⟨p, hp, hl⟩)

theorem Inv.apart_visit_open {p q : Nat} (hp : arena.Active (done ++ [place]) p)
    (hq : arena.Active (done ++ [place]) q)
    (hpq : (s.visit place).laneOf? p = (s.visit place).laneOf? q) : p = q := by
  rcases (Arena.active_append_open hr ho).mp hp with rfl | hp' <;>
    rcases (Arena.active_append_open hr ho).mp hq with rfl | hq'
  · rfl
  · exact absurd hpq.symm (h.laneOf?_visit_open_ne hr ho hq')
  · exact absurd hpq (h.laneOf?_visit_open_ne hr ho hp')
  · rw [laneOf?_visit_of_mem hr hp'.1, laneOf?_visit_of_mem hr hq'.1] at hpq
    exact h.apart p q hp' hq' hpq

theorem Inv.laneCount_visit_open_le_iff {n : Nat} : (s.visit place).laneCount ≤ n ↔
    ∀ p ∈ done ++ [place], arena.Opens p → ∀ l, (s.visit place).laneOf? p = some l → l < n := by
  obtain ⟨hnew, -, hcount⟩ := h.visit_open hr ho
  have hold : (∀ p ∈ done, arena.Opens p → ∀ l, (s.visit place).laneOf? p = some l → l < n) ↔
      s.laneCount ≤ n := by
    rw [h.count]
    exact forall₂_congr fun p hp => by rw [laneOf?_visit_of_mem hr hp]
  rw [hcount, Nat.max_le, List.forall_mem_append, hold, List.forall_mem_singleton, hnew]
  refine and_congr_right fun _ => ⟨?_, fun hlane => hlane ho _ rfl⟩
  rintro hlane - _ ⟨⟩
  exact hlane

/-- Opening a piece keeps the invariant: its lane is new. -/
theorem inv_visit_open : Inv arena (done ++ [place]) (s.visit place) where
  same i hi := by
    have hne : i ≠ place := by
      rintro rfl
      exact hi (List.mem_append_right _ (List.mem_singleton_self i)) ho
    rw [getElem?_visit_of_ne hne]
    exact h.same i fun hmem => hi (List.mem_append_left _ hmem)
  given i hi e he hopen := h.given_visit_open hr ho hi he hopen
  ascending := by
    rw [(h.visit_open hr ho).2.1]
    exact pairwise_insertLane h.ascending (lowestFree_notMem h.ascending)
  busy l := h.mem_busy_visit_open hr ho
  apart p q := h.apart_visit_open hr ho
  count n := h.laneCount_visit_open_le_iff hr ho

end Opening

/-! ### Closing a piece -/

section Closing

variable (h : Inv arena done s) (hr : arena.Ready done place) (hc : arena.Closes place o)
include h hr hc

/-- Closing a piece frees its lane and does nothing else. -/
theorem Inv.visit_close : ∃ l, s.laneOf? o = some l ∧
    (s.visit place).arena = s.arena ∧ (s.visit place).busy = s.busy.erase l ∧
    (s.visit place).laneCount = s.laneCount := by
  obtain ⟨l, hlane, -⟩ := h.lane_of_active (hr.active hc)
  obtain ⟨e, he, hlink⟩ := hc
  have hs : s.arena[place]? = some e := by
    rw [h.same place fun hin => absurd hin hr.fresh, he]
  have hvisit := Sweep.visit_close hs hlink hlane
  refine ⟨l, hlane, ?_, ?_, ?_⟩ <;> rw [hvisit] <;> rfl

theorem Inv.laneOf?_visit_close (p : Nat) : (s.visit place).laneOf? p = s.laneOf? p := by
  obtain ⟨-, -, harena, -⟩ := h.visit_close hr hc
  rw [laneOf?, harena, laneOf?]

/-- The piece that ends is the only active one in its lane. -/
theorem Inv.mem_busy_visit_close {l : Nat} : l ∈ (s.visit place).busy ↔
    ∃ p, arena.Active (done ++ [place]) p ∧ (s.visit place).laneOf? p = some l := by
  obtain ⟨l', hlane, -, hbusy, -⟩ := h.visit_close hr hc
  have hnodup : s.busy.Nodup := h.ascending.imp Nat.ne_of_lt
  simp only [hbusy, hnodup.mem_erase_iff, h.busy, Arena.active_append_close hc,
    h.laneOf?_visit_close hr hc]
  constructor
  · rintro ⟨hne, p, hp, hl⟩
    refine ⟨p, ⟨hp, ?_⟩, hl⟩
    rintro rfl
    exact hne (Option.some.inj (hl.symm.trans hlane))
  · rintro ⟨p, ⟨hp, hne⟩, hl⟩
    refine ⟨?_, p, hp, hl⟩
    rintro rfl
    exact hne (h.apart p o hp (hr.active hc) (hl.trans hlane.symm))

omit h hr in
/-- No piece begins where one ends. -/
theorem mem_of_opens_of_closes {p : Nat} (hp : p ∈ done ++ [place]) (hop : arena.Opens p) :
    p ∈ done := by
  rcases List.mem_append.mp hp with hp | hp
  · exact hp
  · rw [List.mem_singleton.mp hp] at hop
    exact absurd hop hc.not_opens

theorem Inv.laneCount_visit_close_le_iff {n : Nat} : (s.visit place).laneCount ≤ n ↔
    ∀ p ∈ done ++ [place], arena.Opens p → ∀ l, (s.visit place).laneOf? p = some l → l < n := by
  obtain ⟨-, -, -, -, hcount⟩ := h.visit_close hr hc
  simp only [hcount, h.count, h.laneOf?_visit_close hr hc]
  constructor
  · intro hall p hp hop
    exact hall p (mem_of_opens_of_closes hc hp hop) hop
  · intro hall p hp
    exact hall p (List.mem_append_left _ hp)

/-- Closing a piece keeps the invariant: its lane, and no other, is free again. -/
theorem inv_visit_close : Inv arena (done ++ [place]) (s.visit place) where
  same i hi := by
    obtain ⟨-, -, harena, -⟩ := h.visit_close hr hc
    rw [harena]
    exact h.same i fun hin => hi (List.mem_append_left _ hin)
  given i hi e he hopen := by
    obtain ⟨-, -, harena, -⟩ := h.visit_close hr hc
    rw [harena]
    exact h.given i (mem_of_opens_of_closes hc hi ⟨e, he, hopen⟩) e he hopen
  ascending := by
    obtain ⟨_, -, -, hbusy, -⟩ := h.visit_close hr hc
    rw [hbusy]
    exact h.ascending.sublist List.erase_sublist
  busy l := h.mem_busy_visit_close hr hc
  apart p q hp hq hpq := by
    rw [h.laneOf?_visit_close hr hc, h.laneOf?_visit_close hr hc] at hpq
    rw [Arena.active_append_close hc] at hp hq
    exact h.apart p q hp.1 hq.1 hpq
  count n := h.laneCount_visit_close_le_iff hr hc

end Closing

/-! ### Any visit -/

theorem inv_visit (h : Inv arena done s) (hr : arena.Ready done place) :
    Inv arena (done ++ [place]) (s.visit place) := by
  rcases Arena.opens_or_closes hr.inside with ho | ⟨o, hc⟩
  · exact inv_visit_open h hr ho
  · exact inv_visit_close h hr hc

/-- Where the arena is ready nothing stops the sweep. -/
theorem fault?_eq_none (h : Inv arena done s) (hr : arena.Ready done place) :
    s.fault? place = none := by
  have he := Array.getElem?_eq_getElem hr.inside
  obtain ⟨lane, hs⟩ := h.getElem? he
  unfold fault?
  rw [hs, Option.bind_some]
  split
  · rfl
  next o hlink =>
    obtain ⟨l, hlane, hmem⟩ := h.lane_of_active (hr.active ⟨_, he, hlink⟩)
    obtain ⟨opener, ho, -⟩ := Option.bind_eq_some_iff.mp hlane
    have hsize : o < s.arena.size := (Array.getElem?_eq_some_iff.mp ho).1
    rw [if_neg (Nat.not_le.mpr hsize), hlane]
    simp [hmem]

/-! ### A whole run -/

/-- The state of the sweep of an arena after the places `done`. -/
def after (arena : Arena) (done : List Nat) : Sweep := done.foldl visit (start arena)

theorem after_concat (arena : Arena) (done : List Nat) (place : Nat) :
    after arena (done ++ [place]) = (after arena done).visit place := by
  rw [after, List.foldl_append]; rfl

/-- Visiting more places of the order keeps the invariant. -/
theorem inv_foldl (h : arena.Linked) : ∀ (more done rest : List Nat) (s : Sweep),
    sweepOrder events arena = done ++ (more ++ rest) → Inv arena done s →
      Inv arena (done ++ more) (more.foldl visit s)
  | [], done, _, s, _, hs => by rwa [List.append_nil]
  | place :: more, done, rest, s, horder, hs => by
      have hstep := inv_visit hs (h.ready horder)
      have hrec := inv_foldl h more (done ++ [place]) rest (s.visit place)
        (by simpa [List.append_assoc] using horder) hstep
      simpa [List.append_assoc] using hrec

/-- The invariant holds after every part of the order. -/
theorem inv_after (h : arena.Linked) (horder : sweepOrder events arena = done ++ rest) :
    Inv arena done (after arena done) :=
  inv_foldl h done [] rest (start arena) horder (inv_start arena)

theorem run_eq_foldl (h : arena.Linked) : ∀ (more done : List Nat) (s : Sweep),
    sweepOrder events arena = done ++ more → Inv arena done s →
      s.run more = (more.foldl visit s, none)
  | [], _, _, _, _ => rfl
  | place :: more, done, s, horder, hs => by
      have hready := h.ready horder
      rw [run, fault?_eq_none hs hready]
      exact run_eq_foldl h more (done ++ [place]) (s.visit place) (by simpa using horder)
        (inv_visit hs hready)

/-- A linked arena is swept to its end. -/
theorem allocate_eq (h : arena.Linked) :
    allocate events arena = (after arena (sweepOrder events arena), none) :=
  run_eq_foldl h _ [] _ rfl (inv_start arena)

end Sweep

end WallCalendar
