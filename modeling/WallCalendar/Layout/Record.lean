import WallCalendar.Json.Value
import WallCalendar.Layout.Basic

/-!
Layouts and events as JSON values.

Fields stand in a fixed order and nothing is left out: an absent text is null.
-/

namespace WallCalendar

open WallCalendar.Json

/-- Kind and ends of a span. -/
def Span.ends : Span → String × String × String
  | days start stop => ("date", start.iso, stop.iso)
  | moments start stop => ("date_time", start.iso, stop.iso)

/-- An event as a value. -/
def Event.value (e : Event) : Value :=
  let (kind, start, stop) := e.span.ends
  .object
    [("kind", .text kind), ("title", .text e.details.title),
      ("description", .ofText? e.details.description), ("url", .ofText? e.details.url),
      ("image_url", .ofText? e.details.imageUrl),
      ("categories", .list (e.details.categories.map Value.text)),
      ("start", .text start), ("end", .text stop)]

/-- A day cell as a value. -/
def DayCell.value (d : DayCell) : Value :=
  .object
    [("ord", .integer d.ord), ("date", .text d.date.iso), ("row", .integer d.row),
      ("col", .integer d.col), ("label", .text d.label), ("in_year", .bool d.inYear),
      ("reserved_lanes", .integer d.reservedLanes), ("events", .list (d.events.map Event.value))]

/-- A segment as a value. -/
def Segment.value (s : Segment) : Value :=
  .object
    [("event", s.event.value), ("row", .integer s.row), ("col_start", .integer s.colStart),
      ("col_end", .integer s.colEnd), ("lane", .integer s.lane),
      ("continues_before", .bool s.continuesBefore), ("continues_after", .bool s.continuesAfter)]

/-- A layout as a value. -/
def Layout.value (l : Layout) : Value :=
  .object
    [("year", .integer l.year), ("rows", .integer l.rows), ("lane_count", .integer l.laneCount),
      ("days", .list (l.days.map DayCell.value)),
      ("segments", .list (l.segments.map Segment.value))]

/-- The JSON text of a layout. -/
def Layout.json (l : Layout) : String := l.value.pretty

end WallCalendar
