import WallCalendar.Lane.Sweep

/-!
The lanes in use, kept as an ascending list.

The lowest free lane is the least number that is not in the list; inserting a lane keeps the list
ascending; the watermark is the least bound of all lanes in it. Nothing later looks into these three
functions again.
-/

namespace WallCalendar

/-! ### The lowest free lane -/

theorem lowestFrom_spec : ∀ (busy : List Nat) (lane : Nat), busy.Pairwise (· < ·) →
    (∀ l ∈ busy, lane ≤ l) → lane ≤ lowestFrom lane busy ∧ lowestFrom lane busy ∉ busy ∧
      ∀ l, lane ≤ l → l < lowestFrom lane busy → l ∈ busy
  | [], lane, _, _ => by
      refine ⟨Nat.le_refl lane, List.not_mem_nil, ?_⟩
      intro l hl hlt
      exact absurd hlt (Nat.not_lt.mpr hl)
  | taken :: busy, lane, hasc, hle => by
      obtain ⟨hhead, htail⟩ := List.pairwise_cons.mp hasc
      rw [lowestFrom]
      split
      next heq =>
        subst heq
        obtain ⟨hge, hfree, hbelow⟩ := lowestFrom_spec busy (taken + 1) htail hhead
        refine ⟨by omega, ?_, ?_⟩
        · rw [List.mem_cons, not_or]
          exact ⟨by omega, hfree⟩
        · intro l hl hlt
          rcases Nat.eq_or_lt_of_le hl with rfl | hl
          · exact List.mem_cons_self ..
          · exact List.mem_cons_of_mem _ (hbelow l hl hlt)
      next hne =>
        have hlane : lane < taken :=
          Nat.lt_of_le_of_ne (hle taken (List.mem_cons_self ..)) (Ne.symm hne)
        refine ⟨Nat.le_refl lane, ?_, ?_⟩
        · rw [List.mem_cons, not_or]
          refine ⟨Ne.symm hne, ?_⟩
          intro hmem
          have := hhead lane hmem
          omega
        · intro l hl hlt
          exact absurd hlt (Nat.not_lt.mpr hl)

variable {busy : List Nat}

theorem lowestFree_notMem (h : busy.Pairwise (· < ·)) : lowestFree busy ∉ busy :=
  (lowestFrom_spec busy 0 h fun _ _ => Nat.zero_le _).2.1

theorem mem_of_lt_lowestFree (h : busy.Pairwise (· < ·)) {l : Nat} (hl : l < lowestFree busy) :
    l ∈ busy :=
  (lowestFrom_spec busy 0 h fun _ _ => Nat.zero_le _).2.2 l (Nat.zero_le l) hl

/-! ### Taking a lane -/

theorem mem_insertLane {lane l : Nat} : ∀ {busy : List Nat},
    l ∈ insertLane lane busy ↔ l = lane ∨ l ∈ busy
  | [] => by simp [insertLane]
  | taken :: busy => by
      rw [insertLane]
      split
      · rw [List.mem_cons, mem_insertLane, List.mem_cons]
        exact or_left_comm
      · exact List.mem_cons

theorem length_insertLane (lane : Nat) : ∀ busy : List Nat,
    (insertLane lane busy).length = busy.length + 1
  | [] => rfl
  | taken :: busy => by
      rw [insertLane]
      split
      · rw [List.length_cons, length_insertLane lane busy, List.length_cons]
      · rfl

theorem pairwise_insertLane {lane : Nat} : ∀ {busy : List Nat}, busy.Pairwise (· < ·) →
    lane ∉ busy → (insertLane lane busy).Pairwise (· < ·)
  | [], _, _ => List.pairwise_singleton ..
  | taken :: busy, hasc, hnot => by
      obtain ⟨hhead, htail⟩ := List.pairwise_cons.mp hasc
      rw [List.mem_cons, not_or] at hnot
      rw [insertLane]
      split
      next hlt =>
        refine List.pairwise_cons.mpr ⟨?_, pairwise_insertLane htail hnot.2⟩
        intro l hl
        rcases mem_insertLane.mp hl with rfl | hl
        · exact hlt
        · exact hhead l hl
      next hge =>
        refine List.pairwise_cons.mpr ⟨?_, hasc⟩
        intro l hl
        have htaken : lane < taken := by omega
        rcases List.mem_cons.mp hl with rfl | hl
        · exact htaken
        · exact Nat.lt_trans htaken (hhead l hl)

/-! ### The watermark -/

/-- The watermark is the least bound of the lanes in use. -/
theorem watermark_le_iff (h : busy.Pairwise (· < ·)) {n : Nat} :
    watermark busy ≤ n ↔ ∀ l ∈ busy, l < n := by
  rcases List.eq_nil_or_concat busy with rfl | ⟨lower, top, rfl⟩
  · simp [watermark]
  · rw [List.concat_eq_append] at h ⊢
    simp only [watermark, List.getLast?_concat]
    constructor
    · intro hn l hl
      rcases List.mem_append.mp hl with hl | hl
      · have := (List.pairwise_append.mp h).2.2 l hl top (List.mem_singleton_self top)
        omega
      · rw [List.mem_singleton.mp hl]
        omega
    · intro hall
      exact hall top (List.mem_append_right _ (List.mem_singleton_self top))

end WallCalendar
