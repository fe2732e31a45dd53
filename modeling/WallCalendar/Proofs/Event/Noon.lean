import WallCalendar.Proofs.Event.Reading
import WallCalendar.Proofs.Event.Span

/-!
The noon rule.

A timed span that ends on a later day is drawn on that day if it goes on past noon. Whether it does
is told by whole seconds: a span that ends within the second after noon is taken to end at noon,
whatever its fraction says. Any other span is drawn by the rule to the instant, so one whose end has
no fraction always is.
-/

namespace WallCalendar

/-! ### Noon -/

namespace TimeOfDay

variable {a b t : TimeOfDay}

/-- Noon, to the instant. -/
def noon : TimeOfDay := { midnight with second := Span.noon, second_lt := by decide }

/-- The first whole second after noon. -/
def afterNoon : TimeOfDay := { midnight with second := Span.noon + 1, second_lt := by decide }

/-- Strictly later than noon, be it by a fraction of a second. -/
def IsPastNoon (t : TimeOfDay) : Prop := Ord.compare noon t = .lt

instance (t : TimeOfDay) : Decidable t.IsPastNoon := inferInstanceAs (Decidable (_ = _))

/-- Within the second that begins at noon, but not at noon. -/
def InNoonSecond (t : TimeOfDay) : Prop := t.second = Span.noon ∧ 0 < t.nanos

instance (t : TimeOfDay) : Decidable t.InNoonSecond := inferInstanceAs (Decidable (_ ∧ _))

theorem compare_lt_iff :
    Ord.compare a b = .lt ↔ a.second < b.second ∨ a.second = b.second ∧ a.nanos < b.nanos := by
  rw [show Ord.compare a b = TimeOfDay.compare a b from rfl, TimeOfDay.compare,
    Ordering.then_eq_lt, Nat.compare_eq_lt, Nat.compare_eq_eq, Nat.compare_eq_lt]

/-- Past noon is a whole second past noon, or a fraction of that second. -/
theorem isPastNoon_iff : t.IsPastNoon ↔ Span.noon < t.second ∨ t.InNoonSecond := by
  rw [IsPastNoon, compare_lt_iff, InNoonSecond, @eq_comm _ t.second]
  rfl

/-- What comes before the first whole second after noon shows noon or an earlier second. -/
theorem compare_afterNoon_iff : Ord.compare t afterNoon = .lt ↔ t.second ≤ Span.noon := by
  have hsecond : afterNoon.second = Span.noon + 1 := rfl
  have hnanos : afterNoon.nanos = 0 := rfl
  rw [compare_lt_iff, hsecond, hnanos]
  omega

end TimeOfDay

/-! ### The last day of a timed span -/

namespace Span

variable {start stop : Moment}

/-- The noon rule, taken to the instant, gives `d` as the last day. -/
structure IsNoonDay (start stop : Moment) (d : Date) : Prop where
  same_day : stop.date ≤ start.date → d = start.date
  past_noon : start.date < stop.date → stop.time.IsPastNoon → d = stop.date
  up_to_noon : start.date < stop.date → ¬ stop.time.IsPastNoon → d.number = stop.date.number - 1

/-- The span ends on a later day, within the second that begins at noon. -/
def EndsInNoonSecond (start stop : Moment) : Prop :=
  start.date < stop.date ∧ stop.time.InNoonSecond

theorem lastDay_of_le (h : stop.date ≤ start.date) :
    (moments start stop).lastDay = start.date := if_pos h

theorem lastDay_of_lt (h : start.date < stop.date) : (moments start stop).lastDay =
    if noon < stop.time.second then stop.date else dayBefore start.date stop.date :=
  if_neg (Int.not_le.mpr h)

theorem lastDay_of_noon_lt (h : start.date < stop.date) (hsecond : noon < stop.time.second) :
    (moments start stop).lastDay = stop.date := by
  rw [lastDay_of_lt h, if_pos hsecond]

theorem number_lastDay_of_le_noon (h : start.date < stop.date)
    (hsecond : stop.time.second ≤ noon) :
    (moments start stop).lastDay.number = stop.date.number - 1 := by
  rw [lastDay_of_lt h, if_neg (Nat.not_lt.mpr hsecond), dayBefore_of_lt h]

/-- A span that ends within the second after noon loses the day of its end. -/
theorem EndsInNoonSecond.not_isNoonDay (h : EndsInNoonSecond start stop) :
    ¬ IsNoonDay start stop (moments start stop).lastDay := by
  intro hrule
  have hday := hrule.past_noon h.1 (TimeOfDay.isPastNoon_iff.mpr (.inr h.2))
  have hnumber := number_lastDay_of_le_noon h.1 (Nat.le_of_eq h.2.1)
  rw [hday] at hnumber
  omega

/-- Every other span keeps the rule to the instant. -/
theorem isNoonDay_lastDay (h : ¬ EndsInNoonSecond start stop) :
    IsNoonDay start stop (moments start stop).lastDay where
  same_day := lastDay_of_le
  past_noon hlt hpast := by
    rcases TimeOfDay.isPastNoon_iff.mp hpast with hsecond | hwithin
    · exact lastDay_of_noon_lt hlt hsecond
    · exact absurd ⟨hlt, hwithin⟩ h
  up_to_noon hlt hpast := by
    rw [TimeOfDay.isPastNoon_iff, not_or, Nat.not_lt] at hpast
    exact number_lastDay_of_le_noon hlt hpast.1

/-- A timed span is drawn on its first day only unless it ends on a later one. That day is drawn if
the span goes on to the first whole second after noon, and otherwise the day before is the last. So
the noon rule is kept to the instant by all spans but those that end on a later day within the
second after noon, which lose the day that the rule gives them. -/
theorem lastDay_noon (start stop : Moment) :
    (stop.date ≤ start.date → (moments start stop).lastDay = start.date) ∧
    (start.date < stop.date →
      (Ord.compare stop.time .afterNoon ≠ .lt → (moments start stop).lastDay = stop.date) ∧
      (Ord.compare stop.time .afterNoon = .lt →
        (moments start stop).lastDay.number = stop.date.number - 1)) ∧
    start.date ≤ (moments start stop).lastDay ∧
    (IsNoonDay start stop (moments start stop).lastDay ↔ ¬ EndsInNoonSecond start stop) := by
  refine ⟨lastDay_of_le, fun hlt => ⟨fun hlate => ?_, fun hearly => ?_⟩,
    startDate_le_lastDay (moments start stop), fun hrule hends => ?_, isNoonDay_lastDay⟩
  · rw [ne_eq, TimeOfDay.compare_afterNoon_iff, Nat.not_le] at hlate
    exact lastDay_of_noon_lt hlt hlate
  · exact number_lastDay_of_le_noon hlt (TimeOfDay.compare_afterNoon_iff.mp hearly)
  · exact hends.not_isNoonDay hrule

end Span

namespace Sample

/-- A shift that ends half a second past noon, two days after it began. -/
def shift : Entry where
  title := "Shift"
  startAt := "2025-06-10T09:00"
  endAt := "2025-06-12T12:00:00.5"

/-- The beginning of the shift. -/
def shiftStart : Moment := ⟨day 2025 6 10, (TimeOfDay.ofClock? 9 0 0 0).get (by decide)⟩

/-- The end of the shift. -/
def shiftStop : Moment := ⟨day 2025 6 12, (TimeOfDay.ofClock? 12 0 0 500000000).get (by decide)⟩

end Sample

/-- The shift goes on past noon of a later day, so that the rule gives it that day, but it is drawn
through the day before only. -/
theorem Event.lastDay_shift :
    ∃ e, ofEntry .utc Sample.shift = .ok e ∧
      e.span = .moments Sample.shiftStart Sample.shiftStop ∧
      Sample.shiftStart.date < Sample.shiftStop.date ∧ Sample.shiftStop.time.IsPastNoon ∧
      e.lastDay = Sample.day 2025 6 11 ∧ e.lastDay ≠ Sample.shiftStop.date ∧
      ¬ Span.IsNoonDay Sample.shiftStart Sample.shiftStop e.lastDay := by
  have hlt : Sample.shiftStart.date < Sample.shiftStop.date := by decide
  have hpast : Sample.shiftStop.time.IsPastNoon := by decide
  refine ⟨_, rfl, rfl, hlt, hpast, by decide, by decide, fun hrule => ?_⟩
  exact absurd (hrule.past_noon hlt hpast) (by decide)

/-- The shift ends within the second after noon. Ending half a second later it gets its day, and
with its ends the other way round only its first. -/
theorem Span.lastDay_noon_sample :
    EndsInNoonSecond Sample.shiftStart Sample.shiftStop ∧
    (moments Sample.shiftStart Sample.shiftStop).lastDay.number =
      Sample.shiftStop.date.number - 1 ∧
    ¬ IsNoonDay Sample.shiftStart Sample.shiftStop
      (moments Sample.shiftStart Sample.shiftStop).lastDay ∧
    (moments Sample.shiftStart ⟨Sample.shiftStop.date, .afterNoon⟩).lastDay =
      Sample.shiftStop.date ∧
    (moments Sample.shiftStop Sample.shiftStart).lastDay = Sample.shiftStop.date := by
  obtain ⟨-, hlater, -, hrule⟩ := lastDay_noon Sample.shiftStart Sample.shiftStop
  obtain ⟨-, hwhole, -, -⟩ :=
    lastDay_noon Sample.shiftStart ⟨Sample.shiftStop.date, .afterNoon⟩
  obtain ⟨hsame, -, -, -⟩ := lastDay_noon Sample.shiftStop Sample.shiftStart
  have hends : EndsInNoonSecond Sample.shiftStart Sample.shiftStop :=
    ⟨by decide, by decide⟩
  refine ⟨hends, (hlater hends.1).2 (by decide), ?_, (hwhole hends.1).1 (by decide),
    hsame (by decide)⟩
  exact fun h => hrule.mp h hends

end WallCalendar
