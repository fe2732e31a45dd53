import WallCalendar.Date.Basic
import WallCalendar.Text.Basic

/-!
Dates as text.

The numeric form is year, month and day with hyphens. A year from 0 to 9999 has four digits; any
other year has a sign and at least four digits, so the numeric form of every date reads back. The
worded forms use English abbreviations and never pad the day.
-/

namespace WallCalendar.Date

open WallCalendar.Text

/-- A year with at least four digits, signed outside 0 to 9999. -/
def yearChars (year : Int) : List Char :=
  if 0 ≤ year ∧ year ≤ 9999 then fixed 4 year.natAbs
  else (if year < 0 then '-' else '+') :: padded 4 year.natAbs

/-- The characters of `YYYY-MM-DD`. -/
def isoChars (d : Date) : List Char :=
  let c := d.civil
  yearChars c.year ++ '-' :: fixed 2 c.month ++ '-' :: fixed 2 c.day

/-- The numeric form `YYYY-MM-DD`. -/
def iso (d : Date) : String := String.ofList d.isoChars

/-- Abbreviated weekday names, from Sunday. -/
def weekdayNames : List String := ["Sun", "Mon", "Tue", "Wed", "Thu", "Fri", "Sat"]

/-- Abbreviated month names, from January. -/
def monthNames : List String :=
  ["Jan", "Feb", "Mar", "Apr", "May", "Jun", "Jul", "Aug", "Sep", "Oct", "Nov", "Dec"]

/-- The abbreviated weekday of a date. -/
def weekdayName (d : Date) : String := (weekdayNames[d.weekday]?).getD ""

/-- Month and day, as in `Mar 1`. -/
def monthDay (d : Date) : String :=
  let c := d.civil
  (monthNames[c.month - 1]?).getD "" ++ " " ++ natText c.day

/-- Weekday, month and day with a comma, as in `Sat, Mar 1`. -/
def short (d : Date) : String := d.weekdayName ++ ", " ++ d.monthDay

/-- Weekday, month and day without a comma, as in `Sat Mar 1`. -/
def plain (d : Date) : String := d.weekdayName ++ " " ++ d.monthDay

end WallCalendar.Date
