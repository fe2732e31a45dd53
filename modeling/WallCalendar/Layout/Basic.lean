import WallCalendar.DayStack
import WallCalendar.Lane.Sweep

/-!
Layouts: a year of events placed on its grid.

Bars are cut into segments, one for each week they touch, with a lane each; all other events are
stacked on the day they start. An event that touches a day outside the grid makes the layout fail:
nothing is clipped. Segments are listed by row, first column and lane.
-/

namespace WallCalendar

/-- The part of a bar that lies in one week. -/
structure Segment where
  event : Event
  row : Int
  /-- The first column covered. -/
  colStart : Int
  /-- One past the last column covered. -/
  colEnd : Int
  lane : Nat
  /-- Whether the event began in an earlier week. -/
  continuesBefore : Bool
  /-- Whether the event goes on in a later week. -/
  continuesAfter : Bool
  deriving DecidableEq, Repr

/-- One day of the grid. -/
structure DayCell where
  ord : Int
  date : Date
  row : Int
  col : Int
  label : String
  /-- False for the days that pad the first and the last week. -/
  inYear : Bool
  /-- The lanes to keep clear above the events of the day. -/
  reservedLanes : Nat
  /-- The events stacked on the day, in order. -/
  events : List Event
  deriving DecidableEq, Repr

/-- A year of events on its grid. -/
structure Layout where
  year : Int
  rows : Nat
  /-- The number of lanes used anywhere. -/
  laneCount : Nat
  days : List DayCell
  segments : List Segment
  deriving DecidableEq, Repr

/-- Why a layout fails. -/
inductive LayoutError where
  /-- An event touches a day that the grid does not show. -/
  | outsideGrid (title : String) (date : Date)
  /-- The year has no grid. -/
  | unsupportedYear (year : Int)
  /-- The sweep stopped. -/
  | brokenSweep (fault : SweepFault)
  deriving DecidableEq, Repr

/-- The wording of an error. -/
def LayoutError.message : LayoutError → String
  | outsideGrid title date =>
    "Event " ++ Text.quoted title ++ " has date " ++ date.iso ++ " outside the rendered grid"
  | unsupportedYear year =>
    "Year " ++ Text.intText year ++ " is outside the supported calendar range"
  | brokenSweep fault => fault.message

/-- Fails if an event is left over, whose day was not visited. -/
def DayStack.finish (s : DayStack) : Except LayoutError Unit :=
  match s.leftover? with
  | some e => .error (.outsideGrid e.title e.startDate)
  | none => .ok ()

namespace Segment

/-- The number of days covered. -/
def length (s : Segment) : Int := s.colEnd - s.colStart

/-- The segment that a closing edge ends. -/
def ofClose? (events : Array Event) (arena : Arena) (close : Edge) : Option Segment := do
  let opener ← arena[← close.openedBy]?
  let lane ← opener.lane
  let event ← events[close.event]?
  return {
    event
    row := Grid.row opener.position
    colStart := Grid.col opener.position
    colEnd := Grid.col (close.position - 1) + 1
    lane
    continuesBefore := !opener.definite
    continuesAfter := !close.definite }

/-- By row, then first column, then lane. -/
def compare (a b : Segment) : Ordering :=
  (Ord.compare a.row b.row).then <|
  (Ord.compare a.colStart b.colStart).then <|
  Ord.compare a.lane b.lane

end Segment

/-- The day number, with the month in the first week and on the first of a month. -/
def DayCell.labelOf (ord : Int) (date : Date) : String :=
  if ord < 7 ∨ date.civil.day = 1 then date.monthDay else Text.natText date.civil.day

namespace Layout

/-- Fails if the grid does not show `date`. -/
def checkDate (g : Grid) (e : Event) (date : Date) : Except LayoutError Unit :=
  if g.contains date then .ok () else .error (.outsideGrid e.title date)

/-- Fails if the grid does not show the first or the last day of an event. -/
def checkEvent (g : Grid) (e : Event) : Except LayoutError Unit := do
  checkDate g e e.startDate
  checkDate g e e.lastDay

/-- The cells of a grid, given the lanes to keep clear and the events of each day. -/
def cells (g : Grid) (reserved : Int → Nat) (perDay : List (List Event)) : List DayCell :=
  (g.dates.zip perDay).zipIdx.map fun ((date, events), i) =>
    let ord : Int := i
    { ord, date
      row := Grid.row ord
      col := Grid.col ord
      label := DayCell.labelOf ord date
      inYear := date.year == g.year
      reservedLanes := reserved ord
      events }

/-- The segments of an arena whose lanes are given. -/
def segmentsOf (events : Array Event) (arena : Arena) : List Segment :=
  (arena.toList.filterMap (Segment.ofClose? events arena)).mergeSort
    fun a b => (Segment.compare a b).isLE

/-- Places events that the grid shows. -/
def place (g : Grid) (events : List Event) : Except LayoutError Layout :=
  let bars := events.filter Event.isBar
  let stack := DayStack.ofEvents (events.filter (!·.isBar))
  match allocate bars.toArray (decompose g bars), stack.popAll g.dates with
  | (_, some fault), _ => .error (.brokenSweep fault)
  | (sweep, none), (perDay, stack) => do
    stack.finish
    return {
      year := g.year
      rows := g.rows
      laneCount := sweep.laneCount
      days := cells g sweep.reservedAt perDay
      segments := segmentsOf bars.toArray sweep.arena }

/-- Places events on a grid, provided that it shows all their days. -/
def ofEvents (g : Grid) (events : List Event) : Except LayoutError Layout := do
  events.forM (checkEvent g)
  place g events

end Layout

end WallCalendar
