import WallCalendar.Layout.Basic
import WallCalendar.Markup

/-!
A layout as markup.

The year is one grid of seven columns. Day cells and segments are both placed by row and column, so
segments lie over the cells of their week. A segment carries its lane, a cell the number of lanes to
keep clear above its own events. What an event says about itself is escaped where it is put in: the
title and the address in its headline, the note, the categories and the picture in its block.
Classes, styles, dates, times and labels are the page's own and are written as they are.
-/

namespace WallCalendar

open WallCalendar.Markup WallCalendar.Text

/-! ### Events -/

namespace Event

/-- The title, as a link if the event has an address. -/
def linkedTitle (e : Event) : String :=
  match e.details.url with
  | some url => openTag "a" [("href", escape url)] ++ escape e.title ++ closeTag "a"
  | none => escape e.title

/-- The headline of an event: its title, after its time if it has one. -/
def headline (e : Event) : String :=
  match e.span with
  | .days .. => e.linkedTitle
  | .moments start _ =>
    openTag "time" [("datetime", start.isoMinute)] ++ start.time.brief ++ closeTag "time" ++ " "
      ++ e.linkedTitle

/-- The picture of an event, if it has one. -/
def picture (e : Event) : String :=
  match e.details.imageUrl with
  | some url => openTag "img" [("src", escape url), ("alt", ""), ("loading", "lazy")]
  | none => ""

/-- The attributes of the block of an event: the note pops up over it. -/
def attributes (e : Event) (cls : String) (style : Option String) : List (String × String) :=
  let styles := match style with
    | some style => [("style", style)]
    | none => []
  let categories :=
    if e.details.categories.isEmpty then []
    else [("data-categories", escape (String.intercalate "," e.details.categories))]
  [("class", cls), ("title", escape e.note)] ++ styles ++ categories

/-- An event as a block: picture, then headline. -/
def block (e : Event) (cls : String) (style : Option String) : String :=
  openTag "div" (e.attributes cls style) ++ e.picture ++ e.headline ++ closeTag "div" ++ "\n"

end Event

/-! ### Days and segments -/

namespace DayCell

/-- The class of a day. -/
def cls (d : DayCell) : String := if d.inYear then "day" else "day other-year"

/-- Where a day stands. -/
def style (d : DayCell) : String :=
  "grid-row: " ++ intText (d.row + 1) ++ "; grid-column: " ++ intText (d.col + 1)

/-- A day cell: its date, the space it keeps clear, its events. -/
def block (d : DayCell) : String :=
  let space :=
    if d.reservedLanes = 0 then ""
    else
      openTag "div" [("class", "lanes"), ("style", "--lanes: " ++ natText d.reservedLanes)]
        ++ closeTag "div" ++ "\n"
  openTag "div" [("class", d.cls), ("style", d.style)] ++ "\n"
    ++ openTag "time" [("datetime", d.date.iso)] ++ d.label ++ closeTag "time" ++ "\n"
    ++ space ++ String.join (d.events.map (·.block "event" none)) ++ closeTag "div" ++ "\n"

end DayCell

namespace Segment

/-- The classes of a segment. -/
def cls (s : Segment) : String :=
  "multi" ++ (if s.continuesBefore then " continues-before" else "")
    ++ (if s.continuesAfter then " continues-after" else "")

/-- Where a segment lies, and in which lane. -/
def style (s : Segment) : String :=
  "grid-row: " ++ intText (s.row + 1) ++ "; grid-column: " ++ intText (s.colStart + 1)
    ++ " / " ++ intText (s.colEnd + 1) ++ "; --lane: " ++ natText s.lane

/-- A segment, placed over the cells it covers. -/
def block (s : Segment) : String := s.event.block s.cls (some s.style)

end Segment

/-! ### The year -/

namespace Layout

/-- The number of weeks and of lanes. -/
def style (l : Layout) : String :=
  "--rows: " ++ natText l.rows ++ "; --max-lanes: " ++ natText l.laneCount

/-- The markup of a layout: the whole year. -/
def html (l : Layout) : String :=
  openTag "div" [("class", "year"), ("data-year", intText l.year), ("style", l.style)] ++ "\n"
    ++ String.join (l.days.map DayCell.block) ++ String.join (l.segments.map Segment.block)
    ++ closeTag "div" ++ "\n"

end Layout

end WallCalendar
