import WallCalendar.Agenda.Document
import WallCalendar.Command.Arguments
import WallCalendar.Layout.Record
import WallCalendar.Layout.Report
import WallCalendar.Picture
import WallCalendar.Template.Basic

/-!
Running commands.

Every command makes one text. Rendering reads the template first, then the documents in order; all
commands merge the documents before anything else is done with them. The command line wins over the
settings, and where neither says it, year and zone are those of the machine. The text goes to a file
if one is named, else it is printed, and a command that fails prints and writes nothing.
-/

namespace WallCalendar

/-! ### Failures -/

/-- Why a file cannot be read or written, as the system says it. -/
structure FileFault where
  message : String
  deriving DecidableEq, Repr

/-- Why a command fails. -/
inductive Failure where
  | unreadTemplate (path : String) (fault : FileFault)
  | template (error : TemplateError)
  | unreadFile (path : String) (fault : FileFault)
  | badDocument (path : String) (error : DocumentError)
  | render (year : Int) (error : PictureError)
  | layout (error : PictureError)
  | unwritten (path : String) (fault : FileFault)
  deriving DecidableEq, Repr

/-- The chain of causes, the outermost first. -/
def Failure.causes : Failure → List String
  | unreadTemplate path fault => ["Failed to read template " ++ path, fault.message]
  | template error => [error.message]
  | unreadFile path fault => ["Failed to read " ++ path, fault.message]
  | badDocument path error => ["Failed to parse " ++ path, error.message]
  | render year error => ["Failed to render " ++ Text.intText year, error.message]
  | layout error => [error.message]
  | unwritten path fault => ["Failed to write " ++ path, fault.message]

/-! ### Making the text -/

/-- How a command reads files. -/
abbrev Reader := String → Except FileFault String

/-- Reads one document. -/
def loadAgenda (read : Reader) (path : String) : Except Failure Agenda :=
  match read path with
  | .error fault => .error (.unreadFile path fault)
  | .ok text => (Agenda.ofText text).mapError (.badDocument path)

/-- Reads documents in order and merges them. -/
def loadMerged (read : Reader) (files : List String) (name : Option String) :
    Except Failure Agenda :=
  (files.mapM (loadAgenda read)).map (Agenda.merge name)

/-- Reads a template, or takes the built-in one. -/
def loadTemplate (read : Reader) : Option String → Except Failure Template
  | none => (Template.ofSource defaultTemplate).mapError .template
  | some path =>
    match read path with
    | .error fault => .error (.unreadTemplate path fault)
    | .ok source => (Template.ofSource source).mapError .template

/-- What a command falls back on when neither command line nor settings say it: the current year of
the machine and its zone. -/
structure Defaults where
  year : Int
  zone : Offset

/-- The page of a year. -/
def RenderRequest.page (r : RenderRequest) (read : Reader) (settings : Settings)
    (defaults : Defaults) : Except Failure String := do
  let template ← loadTemplate read (r.template <|> settings.template)
  let agenda ← loadMerged read r.files r.name
  let year := (r.year <|> settings.year).getD defaults.year
  let zone := (r.zone <|> settings.zone).getD defaults.zone
  let picture ← (Picture.ofAgenda year zone agenda).mapError (.render year)
  return template.fill picture.name picture.content

/-- One document of several. -/
def MergeRequest.document (r : MergeRequest) (read : Reader) : Except Failure String :=
  (loadMerged read r.files r.name).map (·.text ++ "\n")

/-- The layout of a year, in the format asked for. -/
def LayoutRequest.report (r : LayoutRequest) (read : Reader) (settings : Settings)
    (defaults : Defaults) : Except Failure String := do
  let agenda ← loadMerged read r.files none
  let year := (r.year <|> settings.year).getD defaults.year
  let zone := (r.zone <|> settings.zone).getD defaults.zone
  let layout ← (Layout.ofEntries year zone agenda.entries).mapError .layout
  return match r.format with
    | .json => layout.json
    | .pretty => layout.report

namespace Command

/-- The text that a command makes. -/
def text (c : Command) (read : Reader) (settings : Settings) (defaults : Defaults) :
    Except Failure String :=
  match c with
  | render request => request.page read settings defaults
  | merge request => request.document read
  | layout request => request.report read settings defaults

/-- The file that the text goes to; none if it is printed. -/
def destination : Command → Option String
  | render request => request.output
  | merge request => request.output
  | layout _ => none

/-- The paths of all files that a command may read. -/
def sources (c : Command) (settings : Settings) : List String :=
  match c with
  | render request => (request.template <|> settings.template).toList ++ request.files
  | merge request => request.files
  | layout request => request.files

end Command

end WallCalendar
