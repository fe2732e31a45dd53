import WallCalendar.Event.Basic
import WallCalendar.Layout.Basic

/-!
A layout as a plain report.

After a heading come the segments, each with its week, its first and last day and its lane, and then
the days that have events stacked on them. The days of a segment are looked up in the day list by
place; a place that the list does not have shows as a question mark.
-/

namespace WallCalendar

open WallCalendar.Text

namespace Layout

/-- The day at a place of the day list. -/
def dayAt (l : Layout) (row col : Int) : String :=
  let place := 7 * row + col
  if place < 0 then "?"
  else
    match l.days[place.toNat]? with
    | some day => day.date.plain
    | none => "?"

/-- A number in at least two columns, set to the right. -/
def rightAligned (n : Int) : String :=
  let digits := intText n
  String.ofList (List.replicate (2 - digits.length) ' ') ++ digits

/-- The line of a segment. -/
def segmentLine (l : Layout) (s : Segment) : String :=
  "week " ++ rightAligned (s.row + 1) ++ "  " ++ l.dayAt s.row s.colStart ++ " - "
    ++ l.dayAt s.row (s.colEnd - 1) ++ "  lane " ++ natText s.lane ++ "  " ++ s.event.title
    ++ (if s.continuesBefore then "  (continued)" else "")
    ++ (if s.continuesAfter then "  (continues)" else "")

end Layout

/-- The lines of a day and its events. -/
def DayCell.lines (d : DayCell) : String :=
  d.date.plain
    ++ (if d.reservedLanes = 0 then "" else "  [" ++ natText d.reservedLanes ++ " lanes reserved]")
    ++ String.join (d.events.map fun e => "\n    " ++ e.label ++ "  " ++ e.title)

/-- The whole report. -/
def Layout.report (l : Layout) : String :=
  let busy := l.days.filter (!·.events.isEmpty)
  "YEAR " ++ intText l.year ++ " (" ++ natText l.rows ++ " weeks, " ++ natText l.laneCount
    ++ " lanes)\n" ++ String.ofList (List.replicate 40 '-')
    ++ "\nSPANNING (" ++ natText l.segments.length ++ ")"
    ++ String.join (l.segments.map fun s => "\n  " ++ l.segmentLine s)
    ++ "\nDAYS (" ++ natText busy.length ++ ")"
    ++ String.join (busy.map fun d => "\n  " ++ d.lines)
    ++ "\n"

end WallCalendar
