import WallCalendar.Event.Basic
import WallCalendar.Proofs.Date.Civil
import WallCalendar.Proofs.Event.Order

/-!
The days a span is drawn on.

Whatever its two ends are, a span is drawn on its first day at least: the last day drawn is never
before the first. The first day of the calendar has no day before it, but nothing that ends there
could be drawn on that day.
-/

namespace WallCalendar

namespace Span

/-- A later day has a day before it. -/
theorem dayBefore_of_lt {start stop : Date} (h : start < stop) :
    (dayBefore start stop).number = stop.number - 1 := by
  have hfirst := start.first_le
  have hlast := stop.le_last
  rw [Date.lt_iff] at h
  have hpred : stop.pred? = some ⟨stop.number - 1, by omega, by omega⟩ :=
    Date.ofNumber?_eq_some_iff.mpr rfl
  simp only [dayBefore, hpred, Date.latest, Date.le_iff]
  rw [if_pos (by omega)]

theorem dayBefore_of_le {start stop : Date} (h : stop ≤ start) : dayBefore start stop = start := by
  unfold dayBefore
  split
  next last hpred =>
    have hnumber : last.number = stop.number - 1 := Date.ofNumber?_eq_some_iff.mp hpred
    rw [Date.le_iff] at h
    simp only [Date.latest, Date.le_iff]
    rw [if_neg (by omega)]
  next => rfl

theorem le_dayBefore_iff {start stop d : Date} :
    d ≤ dayBefore start stop ↔ d ≤ start ∨ d < stop := by
  rcases Int.lt_or_le start.number stop.number with hlt | hle
  · simp only [Date.le_iff, Date.lt_iff, dayBefore_of_lt hlt]
    omega
  · rw [dayBefore_of_le hle]
    simp only [Date.le_iff, Date.lt_iff]
    omega

theorem start_le_dayBefore (start stop : Date) : start ≤ dayBefore start stop :=
  le_dayBefore_iff.mpr (.inl (Int.le_refl start.number))

/-- The last day drawn is not before the first. -/
theorem startDate_le_lastDay (s : Span) : s.startDate ≤ s.lastDay := by
  cases s with
  | days start stop => exact start_le_dayBefore start stop
  | moments start stop =>
    simp only [startDate, lastDay]
    split
    · exact Int.le_refl start.date.number
    · next h =>
      split
      · exact Int.le_of_lt (Int.not_le.mp h)
      · exact start_le_dayBefore ..

end Span

end WallCalendar
