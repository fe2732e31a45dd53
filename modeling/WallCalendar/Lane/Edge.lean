import WallCalendar.Event.Basic
import WallCalendar.Grid

/-!
Edges: where the pieces of bars begin and end.

A bar is cut at every week boundary strictly inside it, so that each piece lies in one row. A piece
has an opening edge on its first day and a closing edge on the day after its last. All edges stand
in one arena and refer to each other by place. An edge is definite when it is an end of the event
itself and not of a week.
-/

namespace WallCalendar

/-- One end of a piece of a bar. -/
structure Edge where
  /-- The ordinal of the day; for a closing edge the day after the last. -/
  position : Int
  /-- The place of the event in the list of events. -/
  event : Nat
  /-- For a closing edge, the place of the edge that opened the piece. -/
  openedBy : Option Nat
  /-- Whether the event itself begins or ends here. -/
  definite : Bool
  /-- The lane of the piece; given to opening edges by the sweep. -/
  lane : Option Nat
  deriving DecidableEq, Repr

/-- All edges, referred to by place. -/
abbrev Arena := Array Edge

namespace Edge

/-- An opening edge without a lane. -/
def opening (position : Int) (event : Nat) (definite : Bool) : Edge :=
  ⟨position, event, none, definite, none⟩

/-- A closing edge. -/
def closing (position : Int) (event opener : Nat) (definite : Bool) : Edge :=
  ⟨position, event, some opener, definite, none⟩

/-- Whether a piece begins here. -/
def isOpen (e : Edge) : Bool := e.openedBy.isNone

/-- Whether a piece ends here. -/
def isClose (e : Edge) : Bool := e.openedBy.isSome

end Edge

/-- The week boundaries strictly between `first` and `stop`. -/
def weekCuts (first stop : Int) : List Int :=
  (List.range (Grid.row (stop - 1) - Grid.row first).toNat).map
    fun (k : Nat) => 7 * (Grid.row first + 1 + k)

/-- The edges of the pieces from `first` through the cuts to `stop`; `place` is where the first of
them will stand. -/
def pieces (event : Nat) : Bool → Int → List Int → Int → Nat → List Edge
  | definite, first, [], stop, place =>
    [.opening first event definite, .closing stop event place true]
  | definite, first, cut :: cuts, stop, place =>
    .opening first event definite :: .closing cut event place false ::
      pieces event false cut cuts stop (place + 2)

/-- The edges of one event. -/
def Event.edges (g : Grid) (e : Event) (index place : Nat) : List Edge :=
  let first := g.ord e.startDate
  let stop := g.ord e.lastDay + 1
  pieces index true first (weekCuts first stop) stop place

/-- The edges of a list of events, which begins at `index` and whose edges begin at `place`. -/
def decomposeFrom (g : Grid) : Nat → Nat → List Event → List Edge
  | _, _, [] => []
  | index, place, e :: es =>
    let edges := e.edges g index place
    edges ++ decomposeFrom g (index + 1) (place + edges.length) es

/-- The arena of a list of events. -/
def decompose (g : Grid) (events : List Event) : Arena := (decomposeFrom g 0 0 events).toArray

end WallCalendar
