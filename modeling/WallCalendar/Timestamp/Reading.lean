import WallCalendar.Timestamp.Pattern

/-!
Reading dates and timestamps.

Dates and timestamps come in an extended form with hyphens and colons and in a basic form without.
A value with a `T` has a time of day. A timestamp that ends in `Z` or carries an offset names an
instant and is moved to the zone of the calendar; one with neither is local as it stands. The first
pattern that accepts a text decides what it means.
-/

namespace WallCalendar.Timestamp

/-! ### The patterns -/

/-- Year, month and day with hyphens. -/
def extendedDate : Pattern := [.year, .literal '-', .month, .literal '-', .day]

/-- Year, month and day run together. -/
def basicDate : Pattern := [.year, .month, .day]

/-- Extended form up to the minute. -/
def extendedMinute : Pattern := extendedDate ++ [.literal 'T', .hour, .literal ':', .minute]

/-- Extended form with seconds and perhaps a fraction. -/
def extendedSecond : Pattern := extendedMinute ++ [.literal ':', .second, .fraction]

/-- Basic form up to the minute. -/
def basicMinute : Pattern := basicDate ++ [.literal 'T', .hour, .minute]

/-- Basic form with seconds. -/
def basicSecond : Pattern := basicMinute ++ [.second]

/-- The ways to write a date. -/
def datePatterns : List Pattern := [extendedDate, basicDate]

/-- The ways to write a timestamp with an offset. -/
def offsetPatterns : List Pattern :=
  [extendedSecond ++ [.offset], extendedMinute ++ [.offset], basicSecond ++ [.offset]]

/-- The ways to write a timestamp without an offset. -/
def floatingPatterns : List Pattern := [extendedSecond, extendedMinute, basicSecond, basicMinute]

/-! ### Reading -/

/-- Whether a value carries a time of day. -/
def hasTime (s : String) : Bool := s.toList.contains 'T'

/-- Reads a date. -/
def parseDate (s : String) : Option Date := datePatterns.findSome? (·.date? s.toList)

/-- Reads a timestamp without an offset. -/
def parseFloating (cs : List Char) : Option Moment := floatingPatterns.findSome? (·.moment? cs)

/-- Reads a timestamp with an offset, as a moment in UTC. -/
def parseInstant (cs : List Char) : Option Moment := offsetPatterns.findSome? (·.instant? cs)

/-- What comes of reading a timestamp for a zone. -/
inductive Reading where
  /-- The local moment it names. -/
  | moment (m : Moment)
  /-- No pattern accepts it. -/
  | unreadable
  /-- It names an instant whose local date is not representable. -/
  | beyondCalendar
  deriving DecidableEq, Repr

/-- The reading of an instant: its local moment in the zone. -/
def Reading.ofInstant (zone : Offset) (instant : Moment) : Reading :=
  match instant.shift? zone.seconds with
  | some m => .moment m
  | none => .beyondCalendar

/-- The reading of a text that a local pattern may accept. -/
def Reading.ofLocal? : Option Moment → Reading
  | some m => .moment m
  | none => .unreadable

/-- The text before a final `Z`, if there is one, of either case. -/
def withoutZulu? (cs : List Char) : Option (List Char) :=
  match cs.getLast? with
  | some c => if c = 'Z' ∨ c = 'z' then some cs.dropLast else none
  | none => none

/-- Reads a timestamp as a local moment of the zone. -/
def parseLocal (zone : Offset) (s : String) : Reading :=
  let cs := s.toList
  match withoutZulu? cs with
  | some cs =>
    match parseFloating cs with
    | some instant => .ofInstant zone instant
    | none => .unreadable
  | none =>
    match parseInstant cs with
    | some instant => .ofInstant zone instant
    | none => .ofLocal? (parseFloating cs)

end WallCalendar.Timestamp
