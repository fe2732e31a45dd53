import WallCalendar.Agenda.Basic
import WallCalendar.Text.Quoted
import WallCalendar.Timestamp.Reading

/-!
Events: entries whose ends have been read.

An event takes whole days or runs from one moment to another. Whole days end before their stop date.
A timed event that ends on a later day takes that day only if it goes on past noon; otherwise it is
drawn through the day before. Either way an event is drawn on its first day at least.

Events that start earlier come first; of two that start together the one that ends later, then the
one with the smaller title. What is left is settled by kind and by every other detail in turn, so
only equal events compare as equal. Texts are ordered by code points, an absent text before any
other, lists of categories word by word.

In words, the label of an event names the days or times it takes, with an en dash between its ends.
The note that pops up over an event is its title, its label and its description.
-/

namespace WallCalendar

/-! ### Spans -/

/-- When an event takes place. -/
inductive Span where
  /-- Whole days from `start` up to, and not including, `stop`. -/
  | days (start stop : Date)
  /-- From one local moment to another. -/
  | moments (start stop : Moment)
  deriving DecidableEq, Repr

namespace Span

/-- The last second of the day that still counts as noon. -/
def noon : Nat := 43200

/-- The day before `stop`, never before `start`. -/
def dayBefore (start stop : Date) : Date :=
  match stop.pred? with
  | some last => Date.latest start last
  | none => start

/-- The first day. -/
def startDate : Span → Date
  | days start _ => start
  | moments start _ => start.date

/-- The day of the end: the last whole day, or the date of the final moment. -/
def endDate : Span → Date
  | days start stop => dayBefore start stop
  | moments _ stop => stop.date

/-- The last day the span is drawn on. -/
def lastDay : Span → Date
  | days start stop => dayBefore start stop
  | moments start stop =>
    if stop.date ≤ start.date then start.date
    else if noon < stop.time.second then stop.date
    else dayBefore start.date stop.date

/-- The number of days drawn after the first. -/
def extraDays (s : Span) : Int := s.lastDay.number - s.startDate.number

/-- Whether whole days are taken. -/
def isAllDay : Span → Bool
  | days .. => true
  | moments .. => false

/-- Whether the span is drawn as a bar: whole days always are, times only over several days. -/
def isBar : Span → Bool
  | days .. => true
  | s@(moments ..) => decide (0 < s.extraDays)

/-- The first moment. -/
def startMoment : Span → Moment
  | days start _ => .ofDate start
  | moments start _ => start

/-- The moment where the span ends. -/
def stopMoment : Span → Moment
  | days _ stop => .ofDate stop
  | moments _ stop => stop

end Span

/-! ### Events -/

/-- What an event says about itself. -/
structure Details where
  title : String
  description : Option String
  url : Option String
  imageUrl : Option String
  categories : List String
  deriving DecidableEq, Repr

/-- An entry whose ends have been read. -/
structure Event where
  details : Details
  span : Span
  deriving DecidableEq, Repr

namespace Event

/-- The title. -/
def title (e : Event) : String := e.details.title

/-- The first day. -/
def startDate (e : Event) : Date := e.span.startDate

/-- The last day the event is drawn on. -/
def lastDay (e : Event) : Date := e.span.lastDay

/-- Whether the event is drawn as a bar. -/
def isBar (e : Event) : Bool := e.span.isBar

end Event

/-! ### Order -/

/-- Whole days come before times. -/
def Span.rank (s : Span) : Nat := if s.isAllDay then 0 else 1

namespace Event

/-- Earlier start, later end, title, kind, then the remaining details. -/
def compare (a b : Event) : Ordering :=
  (Ord.compare a.span.startMoment b.span.startMoment).then <|
  (Ord.compare b.span.stopMoment a.span.stopMoment).then <|
  (Ord.compare a.details.title b.details.title).then <|
  (Ord.compare a.span.rank b.span.rank).then <|
  (Ord.compare a.details.description b.details.description).then <|
  (Ord.compare a.details.url b.details.url).then <|
  (Ord.compare a.details.imageUrl b.details.imageUrl).then <|
  Ord.compare a.details.categories b.details.categories

instance : Ord Event := ⟨compare⟩

/-- Whether `a` may stand before `b`. -/
def before (a b : Event) : Bool := (compare a b).isLE

/-- The events in order; equal events keep their places. -/
def sort (events : List Event) : List Event := events.mergeSort before

end Event

/-! ### Words -/

/-- The days or times in words. -/
def Span.label (s : Span) : String :=
  match s with
  | .days start _ =>
    if s.lastDay = start then start.short else start.short ++ " – " ++ s.lastDay.short
  | .moments start stop =>
    if start.date = stop.date then
      start.date.short ++ ", " ++ TimeOfDay.briefRange start.time stop.time
    else start.short ++ " – " ++ stop.short

namespace Event

/-- The days or times of an event in words. -/
def label (e : Event) : String := e.span.label

/-- Title and label on lines of their own, and the description after an empty line. -/
def note (e : Event) : String :=
  let description := match e.details.description with
    | some text => "\n\n" ++ text
    | none => ""
  e.title ++ "\n" ++ e.label ++ description

end Event

/-! ### Reading entries -/

/-- Why an entry is no event. -/
inductive EventError where
  /-- One end has a time of day and the other has none. -/
  | mixedEnds (title startAt endAt : String)
  /-- An end cannot be read. -/
  | unreadable (title value : String)
  /-- An end names an instant whose local date is not representable. -/
  | beyondCalendar
  deriving DecidableEq, Repr

/-- The wording of an error. -/
def EventError.message : EventError → String
  | mixedEnds title startAt endAt =>
    "Malformed event " ++ Text.quoted title ++ ": startAt " ++ Text.quoted startAt ++ " and endAt "
      ++ Text.quoted endAt ++ " must both be dates or both be timestamps"
  | unreadable title value =>
    "Invalid timestamp " ++ Text.quoted value ++ " in event " ++ Text.quoted title
  | beyondCalendar => "Local time is outside the supported calendar range"

/-- What an entry says about itself. -/
def Entry.details (e : Entry) : Details :=
  ⟨e.title, e.description, e.url, e.imageUrl, e.categories⟩

/-- Reads one end that must be a date. -/
def Entry.readDate (e : Entry) (value : String) : Except EventError Date :=
  match Timestamp.parseDate value with
  | some date => .ok date
  | none => .error (.unreadable e.title value)

/-- Reads one end that must be a timestamp. -/
def Entry.readMoment (zone : Offset) (e : Entry) (value : String) : Except EventError Moment :=
  match Timestamp.parseLocal zone value with
  | .moment m => .ok m
  | .unreadable => .error (.unreadable e.title value)
  | .beyondCalendar => .error .beyondCalendar

/-- Reads both ends, the start first. They must be of one kind. -/
def Entry.readSpan (zone : Offset) (e : Entry) : Except EventError Span :=
  match Timestamp.hasTime e.startAt, Timestamp.hasTime e.endAt with
  | false, false => do
    let start ← e.readDate e.startAt
    let stop ← e.readDate e.endAt
    return .days start stop
  | true, true => do
    let start ← e.readMoment zone e.startAt
    let stop ← e.readMoment zone e.endAt
    return .moments start stop
  | _, _ => .error (.mixedEnds e.title e.startAt e.endAt)

/-- The event an entry describes, its timestamps moved to the zone. -/
def Event.ofEntry (zone : Offset) (e : Entry) : Except EventError Event := do
  let span ← e.readSpan zone
  return ⟨e.details, span⟩

/-- The events of a list of entries, or the error of the first entry that is none. -/
def Event.ofEntries (zone : Offset) (entries : List Entry) : Except EventError (List Event) :=
  entries.mapM (Event.ofEntry zone)

end WallCalendar
