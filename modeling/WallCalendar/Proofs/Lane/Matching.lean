import Mathlib.Order.WellFoundedSet
import WallCalendar.Proofs.Lane.Assignment

/-!
When two lists of bars give their pieces the same lanes.

The lane of a piece depends only on the pieces opened before it that cover its first day. So pieces
that can be matched, together with all the pieces they depend on, so that days and order are kept,
have the same lanes. Lists with the same bars in another order are an example: bars are renumbered
so that equal bars keep their order.
-/

namespace WallCalendar

variable {g : Grid} {xs ys zs : List Event}

/-! ### Induction along the order -/

/-- The lane of a piece is unique. -/
theorem assigned_lane_unique {p : Piece} {l m : Nat} (hl : (p, l) ∈ assigned g xs)
    (hm : (p, m) ∈ assigned g xs) : l = m := by
  obtain ⟨i, hi, hl⟩ := mem_assigned.mp hl
  obtain ⟨j, hj, hm⟩ := mem_assigned.mp hm
  have hij : i = j := (List.getElem?_inj (List.getElem?_eq_some_iff.mp hi).1
    (nodup_piecesOf g xs)).mp (hi.trans hj.symm)
  rw [hij, hm] at hl
  exact (Option.some.inj hl).symm

instance : IsStrictOrder Piece Piece.Before where
  irrefl := Piece.Before.irrefl
  trans _ _ _ := Piece.Before.trans

/-- What follows for a piece from the pieces before it holds of every piece. -/
theorem piecesOf_induction {P : Piece → Prop}
    (step : ∀ p ∈ piecesOf g xs, (∀ q ∈ piecesOf g xs, q.Before p → P q) → P p) :
    ∀ p ∈ piecesOf g xs, P p := by
  have hwf : {p | p ∈ piecesOf g xs}.WellFoundedOn Piece.Before :=
    (List.finite_toSet _).wellFoundedOn
  intro p hp
  exact hwf.induction hp step

/-! ### Matched pieces -/

/-- A matching of pieces that keeps days and order and leaves out no piece that covers the first day
of a matched one. -/
structure Matching (g : Grid) (xs ys : List Event) (R : Piece → Piece → Prop) : Prop where
  mem_left : ∀ {p p'}, R p p' → p ∈ piecesOf g xs
  mem_right : ∀ {p p'}, R p p' → p' ∈ piecesOf g ys
  first_eq : ∀ {p p'}, R p p' → p.first = p'.first
  stop_eq : ∀ {p p'}, R p p' → p.stop = p'.stop
  before_iff : ∀ {p p' q q'}, R p p' → R q q' → (q.Before p ↔ q'.Before p')
  left_total : ∀ {p p' q}, R p p' → q ∈ piecesOf g xs → q.covers p.first = true → ∃ q', R q q'
  right_total : ∀ {p p' q'}, R p p' → q' ∈ piecesOf g ys → q'.covers p'.first = true → ∃ q, R q q'

/-- Matched pieces have the same lane. -/
theorem Matching.same_lane {R : Piece → Piece → Prop} (h : Matching g xs ys R) {p p' : Piece}
    (hpp : R p p') {l : Nat} (hp : (p, l) ∈ assigned g xs) : (p', l) ∈ assigned g ys := by
  suffices hall : ∀ p ∈ piecesOf g xs, ∀ p' l, R p p' → (p, l) ∈ assigned g xs →
      (p', l) ∈ assigned g ys from hall p (h.mem_left hpp) p' l hpp hp
  refine piecesOf_induction ?_
  intro p _ ih p' l hpp hp
  have hcovers : ∀ {q q'}, R q q' → (q.covers p.first = true ↔ q'.covers p'.first = true) := by
    intro q q' hqq
    rw [Piece.covers_iff, Piece.covers_iff, h.first_eq hqq, h.stop_eq hqq, h.first_eq hpp]
  obtain ⟨l', hp'⟩ := exists_mem_assigned (h.mem_right hpp)
  rcases Nat.lt_trichotomy l l' with hlt | rfl | hlt
  · -- some piece before `p'` has lane `l`, and it is matched by one before `p`
    obtain ⟨q', hq', hbefore, hcov⟩ := (assigned_least hp').2 l hlt
    obtain ⟨q, hqq⟩ := h.right_total hpp (mem_piecesOf_of_assigned hq') hcov
    have hbefore := (h.before_iff hpp hqq).mpr hbefore
    obtain ⟨m, hq⟩ := exists_mem_assigned (h.mem_left hqq)
    have hml := assigned_lane_unique (ih q (h.mem_left hqq) hbefore q' m hqq hq) hq'
    exact absurd hml ((assigned_least hp).1 q m hq hbefore ((hcovers hqq).mpr hcov))
  · exact hp'
  · obtain ⟨q, hq, hbefore, hcov⟩ := (assigned_least hp).2 l' hlt
    obtain ⟨q', hqq⟩ := h.left_total hpp (mem_piecesOf_of_assigned hq) hcov
    have hq' := ih q (h.mem_left hqq) hbefore q' l' hqq hq
    exact absurd rfl ((assigned_least hp').1 q' l' hq' ((h.before_iff hpp hqq).mp hbefore)
      ((hcovers hqq).mp hcov))

/-! ### Bars in another order -/

/-- Sends the places of a list to those of a rearranged one, so that equal bars keep their order. -/
structure Renumbering (xs ys : List Event) (σ : Nat → Nat) : Prop where
  get : ∀ {i e}, xs[i]? = some e → ys[σ i]? = some e
  mono : ∀ {i j e}, xs[i]? = some e → xs[j]? = some e → i < j → σ i < σ j
  onto : ∀ {j e}, ys[j]? = some e → ∃ i, xs[i]? = some e ∧ σ i = j

namespace Renumbering

variable {σ τ : Nat → Nat}

theorem refl (xs : List Event) : Renumbering xs xs id :=
  ⟨fun h => h, fun _ _ hij => hij, fun h => ⟨_, h, rfl⟩⟩

theorem trans (h : Renumbering xs ys σ) (h' : Renumbering ys zs τ) :
    Renumbering xs zs (τ ∘ σ) where
  get he := h'.get (h.get he)
  mono hi hj hij := h'.mono (h.get hi) (h.get hj) (h.mono hi hj hij)
  onto hk := by
    obtain ⟨j, hj, rfl⟩ := h'.onto hk
    obtain ⟨i, hi, rfl⟩ := h.onto hj
    exact ⟨i, hi, rfl⟩

/-- Keeps the first place and renumbers the others. -/
def shift (σ : Nat → Nat) : Nat → Nat
  | 0 => 0
  | i + 1 => σ i + 1

theorem cons (x : Event) (h : Renumbering xs ys σ) : Renumbering (x :: xs) (x :: ys) (shift σ) where
  get {i e} he := by
    cases i with
    | zero => exact he
    | succ i => exact h.get he
  mono {i j e} hi hj hij := by
    cases i with
    | zero => cases j with
      | zero => omega
      | succ j => exact Nat.succ_pos _
    | succ i => cases j with
      | zero => omega
      | succ j => exact Nat.succ_lt_succ (h.mono hi hj (Nat.lt_of_succ_lt_succ hij))
  onto {j e} hj := by
    cases j with
    | zero => exact ⟨0, hj, rfl⟩
    | succ j =>
      obtain ⟨i, hi, rfl⟩ := h.onto hj
      exact ⟨i + 1, hi, rfl⟩

/-- Exchanges the first two places. -/
def exchange : Nat → Nat
  | 0 => 1
  | 1 => 0
  | i + 2 => i + 2

theorem swap {x y : Event} (hne : x ≠ y) (xs : List Event) :
    Renumbering (x :: y :: xs) (y :: x :: xs) exchange where
  get {i e} he := match i, he with
    | 0, he | 1, he | _ + 2, he => he
  mono {i j e} hi hj hij := by
    match i, j, hi, hj with
    | 0, 1, hi, hj => exact absurd (Option.some.inj (hi.trans hj.symm)) hne
    | 0, j + 2, _, _ | 1, j + 2, _, _ => simp [exchange]
    | i + 2, j + 2, _, _ => exact hij
  onto {j e} hj := match j, hj with
    | 0, hj => ⟨1, hj, rfl⟩
    | 1, hj => ⟨0, hj, rfl⟩
    | j + 2, hj => ⟨j + 2, hj, rfl⟩

/-- Every rearrangement of bars is a renumbering. -/
theorem exists_of_perm (h : xs.Perm ys) : ∃ σ, Renumbering xs ys σ := by
  induction h with
  | nil => exact ⟨id, refl []⟩
  | cons x _ ih =>
    obtain ⟨σ, hσ⟩ := ih
    exact ⟨shift σ, hσ.cons x⟩
  | swap x y xs =>
    by_cases hyx : y = x
    · exact ⟨id, hyx ▸ refl _⟩
    · exact ⟨exchange, swap hyx xs⟩
  | trans _ _ ih ih' =>
    obtain ⟨σ, hσ⟩ := ih
    obtain ⟨τ, hτ⟩ := ih'
    exact ⟨τ ∘ σ, hσ.trans hτ⟩

end Renumbering

/-- The same piece of the same bar, which has another number. -/
def Piece.renumber (σ : Nat → Nat) (p : Piece) : Piece := { p with index := σ p.index }

namespace Renumbering

variable {σ : Nat → Nat} {p q : Piece}

theorem mem_piecesOf (h : Renumbering xs ys σ) (hp : p ∈ piecesOf g xs) :
    p.renumber σ ∈ piecesOf g ys := by
  obtain ⟨hget, hpiece⟩ := WallCalendar.mem_piecesOf.mp hp
  exact WallCalendar.mem_piecesOf.mpr ⟨h.get hget, mem_pieces_of_index hpiece _⟩

theorem exists_piece (h : Renumbering xs ys σ) {p' : Piece} (hp : p' ∈ piecesOf g ys) :
    ∃ p ∈ piecesOf g xs, p' = p.renumber σ := by
  obtain ⟨hget, hpiece⟩ := WallCalendar.mem_piecesOf.mp hp
  obtain ⟨i, hi, hσ⟩ := h.onto hget
  refine ⟨{ p' with index := i }, ?_, ?_⟩
  · exact WallCalendar.mem_piecesOf.mpr ⟨hi, mem_pieces_of_index hpiece i⟩
  · rw [Piece.renumber, hσ]

/-- Renumbering keeps the order: numbers only tell equal bars apart. -/
theorem compare_eq (h : Renumbering xs ys σ) (hp : p ∈ piecesOf g xs) (hq : q ∈ piecesOf g xs) :
    Piece.compare (p.renumber σ) (q.renumber σ) = Piece.compare p q := by
  have hnumber : Event.compare p.owner q.owner = .eq →
      Ord.compare (σ p.index) (σ q.index) = Ord.compare p.index q.index := by
    intro howner
    have hgetp := (WallCalendar.mem_piecesOf.mp hp).1
    have hgetq := (WallCalendar.mem_piecesOf.mp hq).1
    rw [← Event.eq_of_compare howner] at hgetq
    rcases Nat.lt_trichotomy p.index q.index with hlt | heq | hlt
    · rw [Nat.compare_eq_lt.mpr hlt, Nat.compare_eq_lt.mpr (h.mono hgetp hgetq hlt)]
    · rw [heq, Nat.compare_eq_eq.mpr rfl, Nat.compare_eq_eq.mpr rfl]
    · rw [Nat.compare_eq_gt.mpr hlt, Nat.compare_eq_gt.mpr (h.mono hgetq hgetp hlt)]
  simp only [Piece.compare, Piece.renumber]
  cases hc : Event.compare p.owner q.owner with
  | eq => rw [hnumber hc]
  | lt | gt => rfl

/-- Renumbered pieces match. -/
theorem matching (h : Renumbering xs ys σ) :
    Matching g xs ys fun p p' => p ∈ piecesOf g xs ∧ p' = p.renumber σ where
  mem_left hp := hp.1
  mem_right hp := hp.2 ▸ h.mem_piecesOf hp.1
  first_eq hp := hp.2 ▸ rfl
  stop_eq hp := hp.2 ▸ rfl
  before_iff := by
    rintro p _ q _ ⟨hp, rfl⟩ ⟨hq, rfl⟩
    rw [Piece.Before, Piece.Before, h.compare_eq hq hp]
  left_total _ hq _ := ⟨_, hq, rfl⟩
  right_total _ hq _ := h.exists_piece hq

/-- A renumbered piece has the lane of the piece, and there are no others. -/
theorem mem_assigned_iff (h : Renumbering xs ys σ) {p' : Piece} {l : Nat} :
    (p', l) ∈ assigned g ys ↔ ∃ p, (p, l) ∈ assigned g xs ∧ p' = p.renumber σ := by
  constructor
  · intro hp'
    obtain ⟨p, hp, rfl⟩ := h.exists_piece (mem_piecesOf_of_assigned hp')
    obtain ⟨m, hm⟩ := exists_mem_assigned hp
    have hml := assigned_lane_unique (h.matching.same_lane ⟨hp, rfl⟩ hm) hp'
    exact ⟨p, hml ▸ hm, rfl⟩
  · rintro ⟨p, hp, rfl⟩
    exact h.matching.same_lane ⟨mem_piecesOf_of_assigned hp, rfl⟩ hp

end Renumbering

end WallCalendar
