import WallCalendar.Proofs.Lane.Sweep

/-!
The lanes that a sweep gives to the pieces of a linked arena.

An opening edge gets the least lane that no piece held at that moment has. So pieces that share a
day never share a lane. The number of lanes counted is the least bound of the lanes given, and the
lanes kept clear on a day are the least bound of those given to the pieces that cover it.
-/

namespace WallCalendar

namespace Arena

variable {events : Array Event} {arena : Arena} {done rest : List Nat} {c o p : Nat}

/-! ### The least free lane -/

/-- The lane of the piece that begins at `o`, once the arena has been swept. -/
def laneOf? (events : Array Event) (arena : Arena) (o : Nat) : Option Nat :=
  (allocate events arena).1.laneOf? o

/-- The piece that begins at `p` is open when the sweep comes to place `o`. -/
def HeldAt (events : Array Event) (arena : Arena) (p o : Nat) : Prop :=
  arena.Opens p ∧ arena.Precedes events p o ∧
    ∀ c, arena.Closes c p → ¬ arena.Precedes events c o

theorem active_iff_heldAt (horder : sweepOrder events arena = done ++ o :: rest) :
    arena.Active done p ↔ arena.HeldAt events p o := by
  simp only [Active, HeldAt, mem_iff_precedes horder]
  constructor
  · rintro ⟨hp, hopen, hnone⟩
    exact ⟨hopen, hp, fun c hclose hc => hnone c hc hclose⟩
  · rintro ⟨hopen, hp, hnone⟩
    exact ⟨hp, hopen, fun c hc hclose => hnone c hclose hc⟩

/-- What a place visited so far has been given is what it has in the end. -/
theorem laneOf?_eq_after (h : arena.Linked) (horder : sweepOrder events arena = done ++ rest)
    (hp : p ∈ done) : arena.laneOf? events p = (Sweep.after arena done).laneOf? p := by
  have hnot : p ∉ rest := by
    have hnodup := nodup_sweepOrder events arena
    rw [horder, List.nodup_append] at hnodup
    exact fun hr => hnodup.2.2 p hp p hr rfl
  rw [laneOf?, Sweep.allocate_eq h, horder]
  simp only [Sweep.after, List.foldl_append]
  exact Sweep.laneOf?_foldl_visit hnot

/-- An opening edge gets the least lane that no piece held there has. -/
theorem Linked.lane_least (h : arena.Linked) (ho : arena.Opens o) :
    ∃ lane, arena.laneOf? events o = some lane ∧
      (∀ p, arena.HeldAt events p o → arena.laneOf? events p ≠ some lane) ∧
      ∀ l < lane, ∃ p, arena.HeldAt events p o ∧ arena.laneOf? events p = some l := by
  obtain ⟨e, he, hopen⟩ := ho
  have hmem : o ∈ sweepOrder events arena := mem_sweepOrder.mpr (Array.getElem?_eq_some_iff.mp he).1
  obtain ⟨done, rest, horder⟩ := List.append_of_mem hmem
  have hinv := Sweep.inv_after h horder
  have horder' : sweepOrder events arena = (done ++ [o]) ++ rest := by
    rw [horder, List.append_assoc]; rfl
  have hs : (Sweep.after arena done).arena[o]? = some e := by
    rw [hinv.same o fun hd => absurd hd (h.ready horder).fresh, he]
  have hbusy : ∀ l, l ∈ (Sweep.after arena done).busy ↔
      ∃ p, arena.HeldAt events p o ∧ arena.laneOf? events p = some l := by
    intro l
    rw [hinv.busy]
    refine exists_congr fun p => ?_
    rw [← active_iff_heldAt horder]
    refine and_congr_right fun hp => ?_
    rw [laneOf?_eq_after h horder hp.1]
  refine ⟨lowestFree (Sweep.after arena done).busy, ?_, ?_, ?_⟩
  · rw [laneOf?_eq_after h horder' (List.mem_append_right _ (List.mem_singleton_self o)),
      Sweep.after_concat, Sweep.laneOf?, Sweep.getElem?_visit_open hs hopen]
    rfl
  · intro p hp hl
    exact lowestFree_notMem hinv.ascending ((hbusy _).mpr ⟨p, hp, hl⟩)
  · intro l hl
    exact (hbusy l).mp (mem_of_lt_lowestFree hinv.ascending hl)

/-- The number of lanes counted is the least bound of the lanes given. -/
theorem Linked.laneCount_le_iff (h : arena.Linked) {n : Nat} :
    (allocate events arena).1.laneCount ≤ n ↔
      ∀ o, arena.Opens o → ∀ l, arena.laneOf? events o = some l → l < n := by
  have hinv := Sweep.inv_after h (List.append_nil (sweepOrder events arena)).symm
  have hmem : ∀ {o}, arena.Opens o → o ∈ sweepOrder events arena := by
    rintro o ⟨e, he, -⟩
    exact mem_sweepOrder.mpr (Array.getElem?_eq_some_iff.mp he).1
  simp only [laneOf?, Sweep.allocate_eq h, hinv.count]
  constructor
  · intro hall o ho
    exact hall o (hmem ho) ho
  · intro hall o _ ho
    exact hall o ho

/-- The piece that begins at `o` covers the day `ord`. -/
def CoversDay (arena : Arena) (ord : Int) (o : Nat) : Prop :=
  (∃ e, arena[o]? = some e ∧ e.openedBy = none ∧ e.position ≤ ord) ∧
    ∀ (c : Nat) (close : Edge), arena[c]? = some close → close.openedBy = some o →
      ord < close.position

/-- A piece is held at an opening edge if it covers that day and comes first. -/
theorem heldAt_iff {e : Edge} (he : arena[o]? = some e) (ho : e.openedBy = none) :
    arena.HeldAt events p o ↔ arena.Precedes events p o ∧ arena.CoversDay e.position p := by
  constructor
  · rintro ⟨⟨a, ha, hopen⟩, hprec, hnone⟩
    refine ⟨hprec, ⟨a, ha, hopen, ?_⟩, ?_⟩
    · obtain ⟨a', e', ha', he', hlt⟩ := hprec
      cases ha.symm.trans ha'
      cases he.symm.trans he'
      exact Edge.position_le_of_compare hlt
    · intro c close hc hlink
      have hne : c ≠ o := by
        rintro rfl
        cases he.symm.trans hc
        rw [ho] at hlink
        cases hlink
      have hafter : arena.Precedes events o c :=
        (precedes_or_precedes (Array.getElem?_eq_some_iff.mp hc).1
          (Array.getElem?_eq_some_iff.mp he).1 hne).resolve_left (hnone c ⟨close, hc, hlink⟩)
      obtain ⟨e', close', he', hc', hlt⟩ := hafter
      cases he.symm.trans he'
      cases hc.symm.trans hc'
      exact Edge.position_lt_of_compare hlt ho (by rw [hlink]; rfl)
  · rintro ⟨hprec, ⟨a, ha, hopen, -⟩, hnone⟩
    refine ⟨⟨a, ha, hopen⟩, hprec, ?_⟩
    rintro c ⟨close, hc, hlink⟩ ⟨close', e', hc', he', hlt⟩
    cases he.symm.trans he'
    cases hc.symm.trans hc'
    exact absurd (hnone c close hc hlink) (Int.not_lt.mpr (Edge.position_le_of_compare hlt))

/-! ### Pieces that share a day -/

/-- The piece from place `o` to place `c` takes the days from `first` up to `stop`. -/
def Spans (arena : Arena) (o c : Nat) (first stop : Int) : Prop :=
  ∃ opener close, arena[o]? = some opener ∧ arena[c]? = some close ∧ close.openedBy = some o ∧
    opener.position = first ∧ close.position = stop

theorem Linked.exists_lane (h : arena.Linked) {first stop : Int}
    (hs : arena.Spans o c first stop) : ∃ lane, arena.laneOf? events o = some lane := by
  obtain ⟨-, close, -, hc, hlink, -⟩ := hs
  obtain ⟨lane, hlane, -⟩ := h.lane_least (h.opens ⟨close, hc, hlink⟩)
  exact ⟨lane, hlane⟩

theorem Linked.coversDay (h : arena.Linked) {first stop ord : Int}
    (hs : arena.Spans o c first stop) (hle : first ≤ ord) (hlt : ord < stop) :
    arena.CoversDay ord o := by
  obtain ⟨opener, close, ho, hc, hlink, rfl, rfl⟩ := hs
  obtain ⟨opener', ho', hopen, -⟩ := h.opener hc hlink
  cases ho.symm.trans ho'
  refine ⟨⟨opener, ho, hopen, hle⟩, ?_⟩
  intro c' close' hc' hlink'
  cases h.once ⟨close, hc, hlink⟩ ⟨close', hc', hlink'⟩
  cases hc.symm.trans hc'
  exact hlt

/-- A piece that begins later, while another is open, gets another lane. -/
theorem Linked.lane_ne_of_precedes (h : arena.Linked) {q : Nat} {first stop first' stop' : Int}
    (hp : arena.Spans p c first stop) (hq : arena.Spans o q first' stop')
    (hprec : arena.Precedes events p o) (hlt : first' < stop) :
    arena.laneOf? events p ≠ arena.laneOf? events o := by
  obtain ⟨opener, close, ho, hc, hlink, rfl, rfl⟩ := hq
  obtain ⟨opener', ho', hopen, -⟩ := h.opener hc hlink
  cases ho.symm.trans ho'
  have hle : first ≤ opener.position := by
    obtain ⟨a, -, ha, -, -, rfl, -⟩ := id hp
    obtain ⟨a', b', ha', hb', hab⟩ := hprec
    cases ha.symm.trans ha'
    cases ho.symm.trans hb'
    exact Edge.position_le_of_compare hab
  have hheld := (heldAt_iff ho hopen).mpr ⟨hprec, h.coversDay hp hle hlt⟩
  obtain ⟨lane, hlane, hfree, -⟩ := h.lane_least ⟨opener, ho, hopen⟩
  rw [hlane]
  exact hfree p hheld

/-- Two pieces that share a day have different lanes. -/
theorem Linked.lane_ne (h : arena.Linked) {q : Nat} {first stop first' stop' : Int}
    (hp : arena.Spans p c first stop) (hq : arena.Spans o q first' stop') (hne : c ≠ q)
    (hlt : first < stop') (hlt' : first' < stop) :
    arena.laneOf? events p ≠ arena.laneOf? events o := by
  have hsize : ∀ {i j : Nat} {a b : Int}, arena.Spans i j a b → i < arena.size := by
    rintro i j a b ⟨opener, -, hi, -⟩
    exact (Array.getElem?_eq_some_iff.mp hi).1
  have hpo : p ≠ o := by
    rintro rfl
    obtain ⟨-, close, -, hc, hlink, -⟩ := id hp
    obtain ⟨-, close', -, hc', hlink', -⟩ := id hq
    exact hne (h.once ⟨close, hc, hlink⟩ ⟨close', hc', hlink'⟩)
  rcases precedes_or_precedes (hsize hp) (hsize hq) hpo with hprec | hprec
  · exact h.lane_ne_of_precedes hp hq hprec hlt'
  · exact (h.lane_ne_of_precedes hq hp hprec hlt).symm

/-! ### The lanes kept clear -/

/-- The order falls into the edges up to a day and those after it. -/
theorem exists_split (events : Array Event) (arena : Arena) (ord : Int) :
    ∃ done rest, sweepOrder events arena = done ++ rest ∧
      (∀ i ∈ done, ∀ e, arena[i]? = some e → e.position ≤ ord) ∧
      ∀ i ∈ rest, ∀ e, arena[i]? = some e → ord < e.position := by
  suffices hsplit : ∀ order : List Nat, order.Pairwise (arena.Precedes events) →
      ∃ done rest, order = done ++ rest ∧
        (∀ i ∈ done, ∀ e, arena[i]? = some e → e.position ≤ ord) ∧
        ∀ i ∈ rest, ∀ e, arena[i]? = some e → ord < e.position from
    hsplit _ (pairwise_sweepOrder events arena)
  intro order
  induction order with
  | nil =>
    intro _
    exact ⟨[], [], rfl, by simp, by simp⟩
  | cons place order ih =>
    intro hpair
    obtain ⟨hhead, htail⟩ := List.pairwise_cons.mp hpair
    by_cases hle : ∀ e, arena[place]? = some e → e.position ≤ ord
    · obtain ⟨done, rest, rfl, hdone, hrest⟩ := ih htail
      refine ⟨place :: done, rest, rfl, ?_, hrest⟩
      intro i hi
      rcases List.mem_cons.mp hi with rfl | hi
      · exact hle
      · exact hdone i hi
    · -- the first edge after the day is followed by later ones only
      refine ⟨[], place :: order, rfl, by simp, ?_⟩
      obtain ⟨e₀, he₀, hlt⟩ : ∃ e, arena[place]? = some e ∧ ord < e.position := by
        simpa using hle
      intro i hi e he
      rcases List.mem_cons.mp hi with rfl | hi
      · cases he.symm.trans he₀
        exact hlt
      · obtain ⟨a, b, ha, hb, hab⟩ := hhead i hi
        cases he₀.symm.trans ha
        cases he.symm.trans hb
        exact Int.lt_of_lt_of_le hlt (Edge.position_le_of_compare hab)

/-- Once the edges up to a day have been visited, the active pieces are those that cover it. -/
theorem active_iff_coversDay {ord : Int} (horder : sweepOrder events arena = done ++ rest)
    (hdone : ∀ i ∈ done, ∀ e, arena[i]? = some e → e.position ≤ ord)
    (hrest : ∀ i ∈ rest, ∀ e, arena[i]? = some e → ord < e.position) :
    arena.Active done o ↔ arena.CoversDay ord o := by
  have hmem : ∀ {i e}, arena[i]? = some e → (i ∈ done ↔ e.position ≤ ord) := by
    intro i e he
    constructor
    · intro hi
      exact hdone i hi e he
    · intro hle
      have hi : i ∈ done ++ rest := by
        rw [← horder]
        exact mem_sweepOrder.mpr (Array.getElem?_eq_some_iff.mp he).1
      rcases List.mem_append.mp hi with hi | hi
      · exact hi
      · exact absurd (hrest i hi e he) (Int.not_lt.mpr hle)
  constructor
  · rintro ⟨ho, ⟨e, he, hopen⟩, hnone⟩
    refine ⟨⟨e, he, hopen, hdone o ho e he⟩, ?_⟩
    intro c close hc hlink
    refine Int.not_le.mp fun hle => ?_
    exact hnone c ((hmem hc).mpr hle) ⟨close, hc, hlink⟩
  · rintro ⟨⟨e, he, hopen, hle⟩, hnone⟩
    refine ⟨(hmem he).mpr hle, ⟨e, he, hopen⟩, ?_⟩
    rintro c hc ⟨close, hclose, hlink⟩
    exact absurd (hnone c close hclose hlink) (Int.not_lt.mpr (hdone c hc close hclose))

/-- The note for a day is the one made at the last edge up to it. -/
theorem Linked.reservedAt_eq (h : arena.Linked) {ord : Int}
    (horder : sweepOrder events arena = done ++ rest)
    (hdone : ∀ i ∈ done, ∀ e, arena[i]? = some e → e.position ≤ ord)
    (hrest : ∀ i ∈ rest, ∀ e, arena[i]? = some e → ord < e.position) :
    (allocate events arena).1.reservedAt ord = watermark (Sweep.after arena done).busy := by
  have hlater : ∀ i ∈ rest, ∀ e, (Sweep.after arena done).arena[i]? = some e →
      ord < e.position := by
    intro i hi e he
    have hi' : i ∈ sweepOrder events arena := by
      rw [horder]
      exact List.mem_append_right _ hi
    obtain ⟨e₀, he₀⟩ : ∃ e₀, arena[i]? = some e₀ :=
      ⟨_, Array.getElem?_eq_getElem (mem_sweepOrder.mp hi')⟩
    obtain ⟨lane, hlane⟩ := (Sweep.inv_after h horder).getElem? he₀
    cases he.symm.trans hlane
    exact hrest i hi e₀ he₀
  have hfinal : (allocate events arena).1.reservedAt ord =
      (Sweep.after arena done).reservedAt ord := by
    rw [Sweep.allocate_eq h, horder, Sweep.after, List.foldl_append]
    exact Sweep.reservedAt_foldl_visit hlater
  rw [hfinal]
  rcases List.eq_nil_or_concat done with rfl | ⟨before, last, rfl⟩
  · rfl
  · rw [List.concat_eq_append] at *
    rw [List.append_assoc] at horder
    obtain ⟨e₀, he₀⟩ : ∃ e₀, arena[last]? = some e₀ :=
      ⟨_, Array.getElem?_eq_getElem (h.ready horder).inside⟩
    obtain ⟨lane, hlane⟩ := (Sweep.inv_after h horder).getElem? he₀
    rw [Sweep.after_concat]
    exact Sweep.reservedAt_visit_of_le hlane
      (hdone last (List.mem_append_right _ (List.mem_singleton_self last)) e₀ he₀)

/-- The lanes kept clear on a day are the least bound of the lanes of the pieces that cover it. -/
theorem Linked.reservedAt_le_iff (h : arena.Linked) {ord : Int} {n : Nat} :
    (allocate events arena).1.reservedAt ord ≤ n ↔
      ∀ o, arena.CoversDay ord o → ∀ l, arena.laneOf? events o = some l → l < n := by
  obtain ⟨done, rest, horder, hdone, hrest⟩ := exists_split events arena ord
  have hinv := Sweep.inv_after h horder
  rw [h.reservedAt_eq horder hdone hrest, watermark_le_iff hinv.ascending]
  constructor
  · intro hall o ho l hl
    have hactive := (active_iff_coversDay horder hdone hrest).mpr ho
    rw [laneOf?_eq_after h horder hactive.1] at hl
    exact hall l ((hinv.busy l).mpr ⟨o, hactive, hl⟩)
  · intro hall l hl
    obtain ⟨o, hactive, hlane⟩ := (hinv.busy l).mp hl
    refine hall o ((active_iff_coversDay horder hdone hrest).mp hactive) l ?_
    rw [laneOf?_eq_after h horder hactive.1, hlane]

end Arena

end WallCalendar
