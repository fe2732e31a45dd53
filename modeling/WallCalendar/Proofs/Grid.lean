import Mathlib.Data.List.OfFn
import WallCalendar.Grid
import WallCalendar.Proofs.Date.Civil
import WallCalendar.Proofs.Event.Order

/-!
The days of a grid.

A grid lists its days in ascending order, each at the place that its ordinal names, and it shows
just the dates it lists.
-/

namespace WallCalendar

namespace Grid

variable {g : Grid} {a b d : Date} {ord : Int}

theorem contains_iff : g.contains d = true ↔ 0 ≤ g.ord d ∧ g.ord d < g.days :=
  decide_eq_true_iff

/-- There is a date at an ordinal just when some date has it. -/
theorem date?_eq_some_iff : g.date? ord = some d ↔ g.ord d = ord := by
  rw [date?, Date.add?, Date.ofNumber?_eq_some_iff, Grid.ord]
  omega

theorem ord_inj (h : g.ord a = g.ord b) : a = b := by
  refine Date.eq_of_number ?_
  simp only [Grid.ord] at h
  omega

theorem ord_le_ord : g.ord a ≤ g.ord b ↔ a ≤ b := by
  simp only [Grid.ord, Date.le_iff]
  omega

theorem getElem?_dates {i : Nat} (h : i < g.days) : g.dates[i]? = some (g.day ⟨i, h⟩) := by
  rw [dates, List.getElem?_ofFn, dif_pos h]

theorem ord_day (g : Grid) (i : Fin g.days) : g.ord (g.day i) = i := by
  simp only [Grid.ord, day]; omega

/-- At every ordinal of the grid there is a day that it shows. -/
theorem exists_date (hnonneg : 0 ≤ ord) (hlt : ord < g.days) :
    ∃ d, g.contains d = true ∧ g.ord d = ord := by
  have hord : g.ord (g.day ⟨ord.toNat, by omega⟩) = ord := by
    rw [ord_day]
    exact Int.toNat_of_nonneg hnonneg
  exact ⟨_, contains_iff.mpr (by rw [hord]; exact ⟨hnonneg, hlt⟩), hord⟩

theorem ord_of_getElem?_dates {i : Nat} (h : g.dates[i]? = some d) : g.ord d = i := by
  obtain ⟨hi, rfl⟩ := List.getElem?_eq_some_iff.mp h
  have hlt : i < g.days := by rwa [dates, List.length_ofFn] at hi
  have hday := getElem?_dates hlt
  rw [h, Option.some_inj] at hday
  rw [hday, ord_day]

/-- A date that the grid shows stands at its ordinal. -/
theorem getElem?_dates_ord (h : g.contains d = true) : g.dates[(g.ord d).toNat]? = some d := by
  obtain ⟨h0, hlt⟩ := contains_iff.mp h
  rw [getElem?_dates (by omega)]
  refine congrArg some (ord_inj (g.ord_day _ |>.trans ?_))
  exact Int.toNat_of_nonneg h0

theorem mem_dates : d ∈ g.dates ↔ g.contains d = true := by
  constructor
  · intro h
    rw [dates, List.mem_ofFn] at h
    obtain ⟨i, rfl⟩ := h
    rw [contains_iff, ord_day]
    exact ⟨Int.natCast_nonneg i, Int.ofNat_lt.mpr i.isLt⟩
  · intro h
    exact List.mem_of_getElem? (getElem?_dates_ord h)

/-- The days of a grid ascend. -/
theorem pairwise_dates (g : Grid) : g.dates.Pairwise (· < ·) := by
  rw [dates, List.pairwise_ofFn]
  intro i j hij
  show g.start.number + i < g.start.number + j
  omega

end Grid

end WallCalendar
