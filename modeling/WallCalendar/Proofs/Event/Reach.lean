import WallCalendar.Proofs.Event.Noon

/-!
How far an event is drawn.

Apart from its first day, a span is drawn on the days it reaches: whole days reach every day before
their stop date, a timed span every day of which it sees the first whole second after noon. The last
day is the latest of them all, so what is known of it comes from what a span reaches. It reaches
nothing after its end date, and with a later end it reaches no less. Ends in the wrong order and the
two ends of the calendar are no exceptions.
-/

namespace WallCalendar

open Std

theorem Date.le_latest_iff {a b d : Date} : d ≤ Date.latest a b ↔ d ≤ a ∨ d ≤ b := by
  simp only [Date.latest, Date.le_iff]
  split <;> omega

namespace Span

variable {s t : Span} {d : Date}

/-! ### The days a span reaches -/

/-- The span goes on far enough into `d` to be drawn there, wherever it starts. -/
def Reaches : Span → Date → Prop
  | days _ stop, d => d < stop
  | moments _ stop, d => (Ord.compare ⟨d, .afterNoon⟩ stop).isLE = true

/-- A timed span reaches the days before its end, and the day of its end past the second of noon. -/
theorem reaches_moments_iff {start stop : Moment} : (moments start stop).Reaches d ↔
    d < stop.date ∨ d = stop.date ∧ noon < stop.time.second := by
  have htime : (Ord.compare TimeOfDay.afterNoon stop.time).isLE = true ↔
      noon < stop.time.second := by
    rw [Ordering.isLE_iff_ne_gt, OrientedCmp.gt_iff_lt, TimeOfDay.compare_afterNoon_iff, Nat.not_le]
  calc (moments start stop).Reaches d
      ↔ Ord.compare d stop.date = .lt ∨
          Ord.compare d stop.date = .eq ∧ (Ord.compare TimeOfDay.afterNoon stop.time).isLE = true :=
        Ordering.isLE_then_iff_or
    _ ↔ d < stop.date ∨ d = stop.date ∧ noon < stop.time.second := by
        rw [htime, LawfulEqOrd.compare_eq_iff_eq]
        exact or_congr_left Int.compare_eq_lt

/-- The last day is the latest of the first day and the days reached. -/
theorem le_lastDay_iff : d ≤ s.lastDay ↔ d ≤ s.startDate ∨ s.Reaches d := by
  cases s with
  | days start stop => exact le_dayBefore_iff
  | moments start stop =>
    rw [reaches_moments_iff]
    have heq : d = stop.date ↔ d.number = stop.date.number :=
      ⟨congrArg Date.number, Date.eq_of_number⟩
    rw [heq]
    rcases Int.lt_or_le start.date.number stop.date.number with hlt | hle
    · rcases Nat.lt_or_ge noon stop.time.second with hlate | hearly
      · rw [lastDay_of_noon_lt hlt hlate]
        simp only [startDate, Date.le_iff, Date.lt_iff]
        omega
      · simp only [startDate, Date.le_iff, Date.lt_iff, number_lastDay_of_le_noon hlt hearly]
        omega
    · rw [lastDay_of_le hle]
      simp only [startDate, Date.le_iff, Date.lt_iff]
      omega

theorem Reaches.le_endDate (h : s.Reaches d) : d ≤ s.endDate := by
  cases s with
  | days start stop => exact le_dayBefore_iff.mpr (.inr h)
  | moments start stop => exact Moment.date_le_of_compare h

theorem lastDay_le_or_reaches (s : Span) : s.lastDay ≤ s.startDate ∨ s.Reaches s.lastDay :=
  le_lastDay_iff.mp (Int.le_refl s.lastDay.number)

/-- Nothing is drawn after the end date, unless the first day itself is. -/
theorem lastDay_le_latest (s : Span) : s.lastDay ≤ Date.latest s.startDate s.endDate := by
  rw [Date.le_latest_iff]
  rcases s.lastDay_le_or_reaches with hfirst | hreached
  · exact .inl hfirst
  · exact .inr hreached.le_endDate

/-- Of the days up to the end date, the end date alone may be left out. -/
theorem endDate_le_lastDay_succ (s : Span) : s.endDate.number ≤ s.lastDay.number + 1 := by
  cases s with
  | days start stop => exact Int.le_add_one (Int.le_refl _)
  | moments start stop =>
    rw [← Int.not_lt]
    intro hlt
    have hfirst := (moments start stop).lastDay.first_le
    have hlast := stop.date.le_last
    simp only [endDate] at hlt
    -- Before the end date, the day after the last one would be reached as well.
    let next : Date := ⟨(moments start stop).lastDay.number + 1, by omega, by omega⟩
    have hnext : next ≤ (moments start stop).lastDay :=
      le_lastDay_iff.mpr (.inr (reaches_moments_iff.mpr (.inl hlt)))
    exact absurd hnext (Int.not_le.mpr (Int.lt_succ _))

theorem extraDays_nonneg (s : Span) : 0 ≤ s.extraDays :=
  Int.sub_nonneg_of_le s.startDate_le_lastDay

theorem isBar_iff : s.isBar = true ↔ s.isAllDay = true ∨ 0 < s.extraDays := by
  cases s with
  | days start stop => simp [isBar, isAllDay]
  | moments start stop => simp [isBar, isAllDay]

/-! ### Prolonging a span -/

/-- The spans are of one kind and start together, and the second ends no earlier. -/
structure ProlongedBy (s t : Span) : Prop where
  kind : s.isAllDay = t.isAllDay
  start : s.startMoment = t.startMoment
  stop : (Ord.compare s.stopMoment t.stopMoment).isLE = true

theorem ProlongedBy.startDate_eq (h : s.ProlongedBy t) : s.startDate = t.startDate := by
  rw [← date_startMoment, ← date_startMoment, h.start]

/-- A longer span reaches every day that a shorter one does. -/
theorem ProlongedBy.reaches (h : s.ProlongedBy t) (hd : s.Reaches d) : t.Reaches d := by
  obtain ⟨hkind, -, hstop⟩ := h
  cases s with
  | days _ stop =>
    cases t with
    | days _ stop' => exact Int.lt_of_lt_of_le hd (Moment.date_le_of_compare hstop)
    | moments _ _ => cases hkind
  | moments _ stop =>
    cases t with
    | days _ _ => cases hkind
    | moments _ stop' => exact TransCmp.isLE_trans hd hstop

theorem ProlongedBy.lastDay_le (h : s.ProlongedBy t) : s.lastDay ≤ t.lastDay := by
  rw [le_lastDay_iff, ← h.startDate_eq]
  rcases s.lastDay_le_or_reaches with hfirst | hreached
  · exact .inl hfirst
  · exact .inr (h.reaches hreached)

theorem ProlongedBy.extraDays_le (h : s.ProlongedBy t) : s.extraDays ≤ t.extraDays := by
  rw [extraDays, extraDays, h.startDate_eq]
  exact Int.sub_le_sub_right h.lastDay_le _

/-- A bar stays a bar. -/
theorem ProlongedBy.isBar (h : s.ProlongedBy t) (hbar : s.isBar = true) : t.isBar = true := by
  rw [isBar_iff] at hbar ⊢
  rcases hbar with hdays | hextra
  · exact .inl (h.kind.symm.trans hdays)
  · exact .inr (Int.lt_of_lt_of_le hextra h.extraDays_le)

end Span

/-- The last day an event is drawn on is not before its first day and not after the later of the
first day and the end date. It is the latest of the days reached, and the end date alone may be left
out. When the event is prolonged, the last day drawn does not go back, no fewer days are drawn, and
a bar stays a bar. -/
theorem Event.lastDay_bounded_monotone (e : Event) :
    e.startDate ≤ e.lastDay ∧
    e.lastDay ≤ Date.latest e.startDate e.span.endDate ∧
    0 ≤ e.span.extraDays ∧
    (∀ d, d ≤ e.lastDay ↔ d ≤ e.startDate ∨ e.span.Reaches d) ∧
    e.span.endDate.number ≤ e.lastDay.number + 1 ∧
    ∀ f : Event, e.span.ProlongedBy f.span →
      e.lastDay ≤ f.lastDay ∧ e.span.extraDays ≤ f.span.extraDays ∧
      (e.isBar = true → f.isBar = true) := by
  refine ⟨e.span.startDate_le_lastDay, e.span.lastDay_le_latest, e.span.extraDays_nonneg,
    fun _ => Span.le_lastDay_iff, e.span.endDate_le_lastDay_succ, ?_⟩
  intro f h
  exact ⟨h.lastDay_le, h.extraDays_le, h.isBar⟩

namespace Sample

/-- The shift, brought to an end at a time of its last day. -/
def shiftUntil (time : TimeOfDay) : Event :=
  concerts (.moments shiftStart ⟨shiftStop.date, time⟩) []

/-- Whole days up to the first day of the calendar, which has no day before it. -/
def toFirstDay : Event := concerts (.days concertStart (day (-262143) 1 1)) []

end Sample

/-- Going on from noon to the next second gives the shift its last day. Whole days that end long
before they start take their first day only, and no less is drawn if they end after it. -/
theorem Event.lastDay_bounded_monotone_sample :
    (Sample.shiftUntil .noon).span.ProlongedBy (Sample.shiftUntil .afterNoon).span ∧
    (Sample.shiftUntil .noon).lastDay ≤ (Sample.shiftUntil .afterNoon).lastDay ∧
    (Sample.shiftUntil .noon).lastDay = Sample.day 2025 6 11 ∧
    (Sample.shiftUntil .afterNoon).lastDay = Sample.day 2025 6 12 ∧
    Sample.toFirstDay.span.ProlongedBy Sample.wholeDays ∧
    0 ≤ Sample.toFirstDay.span.extraDays ∧
    Sample.toFirstDay.span.extraDays ≤ Sample.wholeDays.extraDays ∧
    Sample.toFirstDay.lastDay ≤ Date.latest Sample.toFirstDay.startDate
      Sample.toFirstDay.span.endDate := by
  obtain ⟨-, -, -, -, -, hshift⟩ := lastDay_bounded_monotone (Sample.shiftUntil .noon)
  obtain ⟨-, hlast, hextra, -, -, hfirst⟩ := lastDay_bounded_monotone Sample.toFirstDay
  have hlater : (Sample.shiftUntil .noon).span.ProlongedBy (Sample.shiftUntil .afterNoon).span :=
    ⟨rfl, rfl, by decide⟩
  have hdays : Sample.toFirstDay.span.ProlongedBy Sample.wholeDays := ⟨rfl, rfl, by decide⟩
  exact ⟨hlater, (hshift _ hlater).1, by decide, by decide, hdays, hextra,
    (hfirst (Sample.concerts Sample.wholeDays []) hdays).2.1, hlast⟩

end WallCalendar
