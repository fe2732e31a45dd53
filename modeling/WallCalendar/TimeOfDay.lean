import WallCalendar.Text.Basic

/-!
Times of day and their brief English form.

A time is a second of the day and a number of nanoseconds. Nanoseconds from one thousand million on
mark a leap second, which is kept inside the second it follows; hour and minute never show it. The
brief form is what fits into a day cell: `9am`, `10:30am`, `noon`.
-/

namespace WallCalendar

/-- A time of day: the second counted from midnight and the nanoseconds within it. -/
structure TimeOfDay where
  second : Nat
  nanos : Nat
  second_lt : second < 86400
  nanos_lt : nanos < 2000000000
  deriving DecidableEq, Repr

namespace TimeOfDay

/-- The time of a clock that shows hour, minute and second. Leap seconds follow a second 59. -/
def ofClock? (hour minute second nanos : Nat) : Option TimeOfDay :=
  if h : hour < 24 ∧ minute < 60 ∧ second < 60 ∧ nanos < 2000000000 ∧
      (1000000000 ≤ nanos → second = 59) then
    some ⟨3600 * hour + 60 * minute + second, nanos, by omega, h.2.2.2.1⟩
  else none

/-- The first moment of the day. -/
def midnight : TimeOfDay := ⟨0, 0, by decide, by decide⟩

/-- The hour, from 0 to 23. -/
def hour (t : TimeOfDay) : Nat := t.second / 3600

/-- The minute of the hour. -/
def minute (t : TimeOfDay) : Nat := t.second / 60 % 60

/-- The hour on a twelve-hour dial, from 1 to 12. -/
def dialHour (t : TimeOfDay) : Nat := if t.hour % 12 = 0 then 12 else t.hour % 12

/-- Second of the day first, then the nanoseconds, those of a leap second included. -/
def compare (a b : TimeOfDay) : Ordering :=
  (Ord.compare a.second b.second).then (Ord.compare a.nanos b.nanos)

instance : Ord TimeOfDay := ⟨compare⟩

/-- The brief form: minutes only when there are some, and a word for noon. -/
def brief (t : TimeOfDay) : String :=
  if t.hour = 12 ∧ t.minute = 0 then "noon"
  else
    let minutes := if t.minute = 0 then [] else ':' :: Text.fixed 2 t.minute
    Text.natText t.dialHour ++ String.ofList minutes ++ (if t.hour < 12 then "am" else "pm")

/-- The brief form of a range, with an en dash. -/
def briefRange (start stop : TimeOfDay) : String := start.brief ++ "–" ++ stop.brief

/-- Hour and minute, as in `09:05`. -/
def clockChars (t : TimeOfDay) : List Char := Text.fixed 2 t.hour ++ ':' :: Text.fixed 2 t.minute

/-- The fraction of a second in three, six or nine digits, whichever is exact; nothing for zero. -/
def fractionChars (nanos : Nat) : List Char :=
  if nanos = 0 then []
  else if nanos % 1000000 = 0 then '.' :: Text.fixed 3 (nanos / 1000000)
  else if nanos % 1000 = 0 then '.' :: Text.fixed 6 (nanos / 1000)
  else '.' :: Text.fixed 9 nanos

/-- The full form `HH:MM:SS` with its fraction. A leap second shows as the next second. -/
def isoChars (t : TimeOfDay) : List Char :=
  let second := t.second % 60
  let (second, nanos) :=
    if t.nanos < 1000000000 then (second, t.nanos) else (second + 1, t.nanos - 1000000000)
  t.clockChars ++ ':' :: Text.fixed 2 second ++ fractionChars nanos

end TimeOfDay

end WallCalendar
