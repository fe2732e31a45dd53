import WallCalendar.Offset

/-!
Requests: what a command line asks for.

There are three commands. Rendering makes a page of a year, merging makes one document of several,
and a layout is shown as JSON or as a report. Every command takes the paths of one or more
documents.
-/

namespace WallCalendar

/-- How a layout is shown. -/
inductive ReportFormat where
  | json
  | pretty
  deriving DecidableEq, Repr

/-- Make a page of a year. -/
structure RenderRequest where
  files : List String
  year : Option Int := none
  name : Option String := none
  template : Option String := none
  output : Option String := none
  zone : Option Offset := none
  deriving DecidableEq, Repr

/-- Make one document of several. -/
structure MergeRequest where
  files : List String
  name : Option String := none
  output : Option String := none
  deriving DecidableEq, Repr

/-- Show the layout of a year. -/
structure LayoutRequest where
  files : List String
  year : Option Int := none
  format : ReportFormat := .pretty
  zone : Option Offset := none
  deriving DecidableEq, Repr

/-- What to do. -/
inductive Command where
  | render (request : RenderRequest)
  | merge (request : MergeRequest)
  | layout (request : LayoutRequest)
  deriving DecidableEq, Repr

/-- A command, and whether to be quiet about it. -/
structure Request where
  quiet : Bool
  command : Command
  deriving DecidableEq, Repr

end WallCalendar
