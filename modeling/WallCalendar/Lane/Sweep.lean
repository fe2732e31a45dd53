import WallCalendar.Lane.Order
import WallCalendar.Text.Basic

/-!
The sweep gives every piece of a bar a lane.

Edges are visited in order. An opening edge takes the lowest lane that is free; a closing edge frees
the lane of the piece it ends. After each edge the sweep notes how many lanes a day at that position
must keep clear: one more than the highest lane in use, the holes below included. A closing edge
that does not end an open piece stops the sweep, and what was assigned until then stays.
-/

namespace WallCalendar

/-- Why a sweep stops. -/
inductive SweepFault where
  /-- An edge closes a piece that is in no place of the arena. -/
  | missingOpener (edge opener : Nat)
  /-- An edge closes a piece that has no lane yet. -/
  | unopened (edge opener : Nat)
  /-- An edge frees a lane that nobody holds. -/
  | vacantLane (edge lane : Nat)
  deriving DecidableEq, Repr

/-- The wording of a fault. -/
def SweepFault.message : SweepFault → String
  | missingOpener edge opener =>
    "edge " ++ Text.natText edge ++ " closes missing segment " ++ Text.natText opener
  | unopened edge opener =>
    "edge " ++ Text.natText edge ++ " closes segment " ++ Text.natText opener ++ " before it opened"
  | vacantLane edge lane =>
    "edge " ++ Text.natText edge ++ " frees lane " ++ Text.natText lane ++ " which is not occupied"

/-- The state of a sweep. -/
structure Sweep where
  /-- The edges, with the lanes given so far. -/
  arena : Arena
  /-- The lanes in use, ascending. -/
  busy : List Nat
  /-- One more than the highest lane ever used. -/
  laneCount : Nat
  /-- After each edge, its position and the lanes to keep clear from there on, the latest first. -/
  log : List (Int × Nat)
  deriving Repr

/-- The lowest lane from `lane` on that is not among the ascending lanes. -/
def lowestFrom (lane : Nat) : List Nat → Nat
  | [] => lane
  | taken :: busy => if taken = lane then lowestFrom (lane + 1) busy else lane

/-- The lowest lane that is not in use. -/
def lowestFree (busy : List Nat) : Nat := lowestFrom 0 busy

/-- Puts a lane into its place among ascending lanes. -/
def insertLane (lane : Nat) : List Nat → List Nat
  | [] => [lane]
  | taken :: busy => if taken < lane then taken :: insertLane lane busy else lane :: taken :: busy

/-- One more than the highest lane in use, zero when none is. -/
def watermark (busy : List Nat) : Nat :=
  match busy.getLast? with
  | some lane => lane + 1
  | none => 0

namespace Sweep

/-- The state before the first edge. -/
def start (arena : Arena) : Sweep := ⟨arena, [], 0, []⟩

/-- Notes the lanes in use after an edge at `position`. -/
def note (s : Sweep) (position : Int) : Sweep :=
  { s with log := (position, watermark s.busy) :: s.log }

/-- Gives the lowest free lane to the opening edge at `place`. -/
def openLane (s : Sweep) (place : Nat) : Sweep :=
  let lane := lowestFree s.busy
  { s with
    arena := s.arena.modify place fun e => { e with lane := some lane }
    busy := insertLane lane s.busy
    laneCount := max s.laneCount (lane + 1) }

/-- The lane of the piece that the edge at `opener` opened. -/
def laneOf? (s : Sweep) (opener : Nat) : Option Nat := s.arena[opener]?.bind Edge.lane

/-- Frees the lane of the piece that the edge at `opener` opened. -/
def freeLane (s : Sweep) (opener : Nat) : Sweep :=
  match s.laneOf? opener with
  | some lane => { s with busy := s.busy.erase lane }
  | none => s

/-- What stops the sweep at the edge at `place`. -/
def fault? (s : Sweep) (place : Nat) : Option SweepFault :=
  match s.arena[place]?.bind Edge.openedBy with
  | none => none
  | some opener =>
    if s.arena.size ≤ opener then some (.missingOpener place opener)
    else
      match s.laneOf? opener with
      | none => some (.unopened place opener)
      | some lane => if s.busy.contains lane then none else some (.vacantLane place lane)

/-- Visits the edge at `place`, which does not stop the sweep. -/
def visit (s : Sweep) (place : Nat) : Sweep :=
  match s.arena[place]? with
  | none => s
  | some e =>
    match e.openedBy with
    | none => (s.openLane place).note e.position
    | some opener => (s.freeLane opener).note e.position

/-- Visits places in order until one stops the sweep. -/
def run (s : Sweep) : List Nat → Sweep × Option SweepFault
  | [] => (s, none)
  | place :: places =>
    match s.fault? place with
    | some fault => (s, some fault)
    | none => (s.visit place).run places

/-- The lanes to keep clear on the day `ord`: the latest note at or before it. -/
def reservedAt (s : Sweep) (ord : Int) : Nat :=
  match s.log.find? (·.1 ≤ ord) with
  | some (_, lanes) => lanes
  | none => 0

/-- Puts an earlier note before those kept, unless a later one has its position. -/
def keep (notes : List (Int × Nat)) (n : Int × Nat) : List (Int × Nat) :=
  match notes with
  | m :: _ => if m.1 = n.1 then notes else n :: notes
  | [] => [n]

/-- The latest note of each position, by ascending position. -/
def reserved (s : Sweep) : List (Int × Nat) := s.log.foldl keep []

end Sweep

/-- Sweeps an arena in its own order. -/
def allocate (events : Array Event) (arena : Arena) : Sweep × Option SweepFault :=
  (Sweep.start arena).run (sweepOrder events arena)

end WallCalendar
