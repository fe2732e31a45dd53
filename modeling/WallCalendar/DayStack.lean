import WallCalendar.Event.Basic

/-!
Day stacks: events that wait, in order, for their day to be visited.

Days are visited in ascending order. A visit takes the events at the head that start on that day. An
event whose day has passed, or never comes, stays at the head and holds up those behind it; it is
what is left at the end.
-/

namespace WallCalendar

/-- Events in order that have not been taken yet. -/
structure DayStack where
  waiting : List Event
  deriving Repr

namespace DayStack

/-- All events waiting, in order. -/
def ofEvents (events : List Event) : DayStack := ⟨Event.sort events⟩

/-- Takes the events at the head that start on `day`. -/
def pop (s : DayStack) (day : Date) : List Event × DayStack :=
  (s.waiting.takeWhile (·.startDate = day), ⟨s.waiting.dropWhile (·.startDate = day)⟩)

/-- Visits days in turn; one list of events for each. -/
def popAll (s : DayStack) : List Date → List (List Event) × DayStack
  | [] => ([], s)
  | day :: days =>
    let (taken, s) := s.pop day
    let (rest, s) := s.popAll days
    (taken :: rest, s)

/-- The number of events not taken yet. -/
def remaining (s : DayStack) : Nat := s.waiting.length

/-- The first event still waiting. -/
def leftover? (s : DayStack) : Option Event := s.waiting.head?

end DayStack

end WallCalendar
