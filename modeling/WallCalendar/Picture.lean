import WallCalendar.Layout.Page

/-!
Pictures: a year of entries, ready to be put into a page.

The year must have a grid, every entry must be an event, and every event must lie on the grid; these
are checked in this order, and the first fault is what is reported.
-/

namespace WallCalendar

/-- Why there is no picture. -/
inductive PictureError where
  /-- An entry is no event. -/
  | event (error : EventError)
  /-- The events have no layout. -/
  | layout (error : LayoutError)
  deriving DecidableEq, Repr

/-- The wording of an error. -/
def PictureError.message : PictureError → String
  | event error => error.message
  | layout error => error.message

/-- The layout of a year of entries, their timestamps moved to the zone. -/
def Layout.ofEntries (year : Int) (zone : Offset) (entries : List Entry) :
    Except PictureError Layout :=
  match Grid.ofYear? year with
  | none => .error (.layout (.unsupportedYear year))
  | some grid =>
    match Event.ofEntries zone entries with
    | .error error => .error (.event error)
    | .ok events => (Layout.ofEvents grid events).mapError .layout

/-- The two texts that go into a page, both safe as markup. -/
structure Picture where
  name : String
  content : String
  deriving DecidableEq, Repr

/-- The picture of a year of entries. -/
def Picture.ofEntries (name : String) (year : Int) (zone : Offset) (entries : List Entry) :
    Except PictureError Picture :=
  (Layout.ofEntries year zone entries).map fun layout => ⟨Markup.escape name, layout.html⟩

/-- The picture of a year of an agenda. -/
def Picture.ofAgenda (year : Int) (zone : Offset) (agenda : Agenda) : Except PictureError Picture :=
  Picture.ofEntries agenda.name year zone agenda.entries

end WallCalendar
