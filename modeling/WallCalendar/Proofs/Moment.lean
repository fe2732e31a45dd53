import WallCalendar.Moment
import WallCalendar.Proofs.Date.Civil
import WallCalendar.Proofs.Event.Order

/-!
Shifting moments.

A moment counts a number of seconds from the day numbered zero. Shifting adds to that count and
leaves the fraction of the second alone. It gives a moment whenever there is one with that count,
and none where the calendar has not begun or has ended.
-/

namespace WallCalendar.Moment

variable {m u r : Moment} {a b : Int}

/-- The seconds from midnight of the day numbered zero. -/
def total (m : Moment) : Int := 86400 * m.date.number + m.time.second

/-- `r` comes `seconds` after `m`, at the same fraction of a second. -/
def IsAfter (m : Moment) (seconds : Int) (r : Moment) : Prop :=
  r.total = m.total + seconds ∧ r.time.nanos = m.time.nanos

instance (m : Moment) (seconds : Int) (r : Moment) : Decidable (m.IsAfter seconds r) :=
  inferInstanceAs (Decidable (_ ∧ _))

theorem eq_of_total (htotal : m.total = r.total) (hnanos : m.time.nanos = r.time.nanos) :
    m = r := by
  obtain ⟨d, s, n, hs, hn⟩ := m
  obtain ⟨d', s', n', hs', hn'⟩ := r
  simp only [total] at htotal hnanos
  have hd : d = d' := Date.eq_of_number (by omega)
  have hsecond : s = s' := by rw [hd] at htotal; omega
  cases hd; cases hsecond; cases hnanos
  rfl

/-- A shift gives the moment that comes after by as much, whenever there is one. -/
theorem shift?_eq_some_iff : m.shift? a = some r ↔ m.IsAfter a r := by
  constructor
  · intro h
    obtain ⟨d, hd, rfl⟩ := Option.map_eq_some_iff.mp h
    rw [Date.add?, Date.ofNumber?_eq_some_iff] at hd
    exact ⟨by simp only [total]; omega, rfl⟩
  · rintro ⟨htotal, hnanos⟩
    simp only [total] at htotal
    have hday : m.date.number + (m.time.second + a) / 86400 = r.date.number := by
      have := r.time.second_lt
      omega
    have hadd : m.date.add? ((m.time.second + a) / 86400) = some r.date := by
      rw [Date.add?, Date.ofNumber?_eq_some_iff, hday]
    rw [shift?, hadd, Option.map_some, Option.some_inj]
    refine eq_of_total ?_ hnanos.symm
    have := r.time.second_lt
    simp only [total]
    omega

/-- Shifting twice shifts by the sum. -/
theorem IsAfter.shift? (hu : m.IsAfter a u) (hr : m.IsAfter (a + b) r) : u.shift? b = some r :=
  shift?_eq_some_iff.mpr ⟨by rw [hr.1, hu.1, Int.add_assoc], hr.2.trans hu.2.symm⟩

/-- So many seconds after `m` the calendar has not begun, or has ended. -/
def Leaves (m : Moment) (seconds : Int) : Prop :=
  m.total + seconds < 86400 * firstDay ∨ 86400 * (lastDay + 1) ≤ m.total + seconds

instance (m : Moment) (seconds : Int) : Decidable (m.Leaves seconds) :=
  inferInstanceAs (Decidable (_ ∨ _))

/-- A shift gives no moment just when it leaves the calendar. -/
theorem shift?_eq_none_iff : m.shift? a = none ↔ m.Leaves a := by
  rw [shift?, Option.map_eq_none_iff, Date.add?, Date.ofNumber?, Leaves, total]
  split
  next hinside =>
    simp only [reduceCtorEq, false_iff, not_or]
    omega
  next houtside =>
    simp only [true_iff]
    omega

/-- Less than a day leads out of the calendar only from its first and its last day. -/
theorem Leaves.at_end {zone : Offset} (h : m.Leaves zone.seconds) :
    zone.seconds < 0 ∧ m.date.number = firstDay ∨ 0 < zone.seconds ∧ m.date.number = lastDay := by
  have hfirst := m.date.first_le
  have hlast := m.date.le_last
  have hsecond := m.time.second_lt
  have hlower := zone.lower
  have hupper := zone.upper
  simp only [Leaves, total] at h
  omega

end WallCalendar.Moment
