import WallCalendar.Event.Basic
import WallCalendar.Lane.Edge

/-!
The order in which the sweep visits edges.

Edges go by position. At one position closing edges come first, so that their lanes can be taken
again there; then edges of weeks before ends of events, so that pieces carried over take the low
lanes; then the order of the events. Places of events and edges settle the rest, so two different
edges never compare as equal.
-/

namespace WallCalendar

/-- Compares the edges at two places of an arena. -/
def Edge.compare (events : Array Event) (a b : Edge) (i j : Nat) : Ordering :=
  (Ord.compare a.position b.position).then <|
  (Ord.compare b.isClose a.isClose).then <|
  (Ord.compare a.definite b.definite).then <|
  (Ord.compare events[a.event]? events[b.event]?).then <|
  (Ord.compare a.event b.event).then <|
  Ord.compare i j

/-- Whether the edge at the first place may be visited before the other. -/
def Edge.before (events : Array Event) (a b : Edge × Nat) : Bool :=
  (Edge.compare events a.1 b.1 a.2 b.2).isLE

/-- Whether only the order of events and places can tell two edges apart. -/
def Edge.meets (a b : Edge) : Bool :=
  a.position == b.position && a.isClose == b.isClose && a.definite == b.definite

/-- Whether the order of an arena hangs on no event that is missing: an edge whose event is not in
the list must meet no other edge. -/
def Arena.isOrderable (events : Array Event) (arena : Arena) : Bool :=
  let edges := arena.toList.zipIdx
  edges.all fun (a, i) =>
    a.event < events.size || edges.all fun (b, j) => i == j || !a.meets b

/-- The places of an arena in the order of the sweep. -/
def sweepOrder (events : Array Event) (arena : Arena) : List Nat :=
  (arena.toList.zipIdx.mergeSort (Edge.before events)).map Prod.snd

end WallCalendar
