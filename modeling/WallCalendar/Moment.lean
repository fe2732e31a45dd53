import WallCalendar.Date.Text
import WallCalendar.Offset
import WallCalendar.TimeOfDay

/-!
Local moments: a date and a time of day, without a zone.

Moments are ordered by date, then time. Shifting a moment by a number of seconds moves the second of
the day and with it the date; the nanoseconds stay, so a leap second stays one. A shift that would
leave the calendar gives nothing.
-/

namespace WallCalendar

/-- A date and a time of day. -/
structure Moment where
  date : Date
  time : TimeOfDay
  deriving DecidableEq, Repr

namespace Moment

/-- The first moment of a date. -/
def ofDate (d : Date) : Moment := ⟨d, .midnight⟩

/-- The moment `seconds` later, if its date is representable. -/
def shift? (m : Moment) (seconds : Int) : Option Moment :=
  let total : Int := m.time.second + seconds
  (m.date.add? (total / 86400)).map fun date =>
    ⟨date, (total % 86400).toNat, m.time.nanos, by omega, m.time.nanos_lt⟩

/-- Date first, then time of day. -/
def compare (a b : Moment) : Ordering :=
  (Ord.compare a.date b.date).then (Ord.compare a.time b.time)

instance : Ord Moment := ⟨compare⟩

/-- The full form, as in `2025-03-10T09:00:00`. -/
def isoChars (m : Moment) : List Char := m.date.isoChars ++ 'T' :: m.time.isoChars

/-- The full form as a text. -/
def iso (m : Moment) : String := String.ofList m.isoChars

/-- Date, hour and minute, as in `2025-03-10T09:00`. -/
def isoMinute (m : Moment) : String := String.ofList (m.date.isoChars ++ 'T' :: m.time.clockChars)

/-- The worded form, as in `Mon, Mar 10, 9pm`. -/
def short (m : Moment) : String := m.date.short ++ ", " ++ m.time.brief

end Moment

end WallCalendar
