import WallCalendar.Agenda.Basic
import WallCalendar.Json.Draft
import WallCalendar.Json.Value

/-!
Agenda documents: agendas as JSON texts.

A document is read from left to right and the first fault is reported, be it a fault of the text or
of what it says. A record may be an object or a list of its fields in order, where the fields at the
end that may be missing may be left out. Keys that mean nothing are passed over, whatever they hold.
What is read comes out in normal form, and writing leaves out what is absent.
-/

namespace WallCalendar

open WallCalendar.Json

/-- What is wrong with a document. -/
inductive DocumentError where
  /-- The text is no JSON, or holds a string or number without a meaning. -/
  | malformed
  /-- An object has no such field. -/
  | missingField (key : String)
  /-- An object has a field twice. -/
  | duplicateField (key : String)
  /-- A value is of the wrong kind. -/
  | wrongType (found expected : String)
  /-- A list of fields is too short. -/
  | wrongLength (count : Nat) (expected : String)
  deriving DecidableEq, Repr

/-- The wording of an error. -/
def DocumentError.message : DocumentError → String
  | malformed => "JSON syntax error"
  | missingField key => "missing field `" ++ key ++ "`"
  | duplicateField key => "duplicate field `" ++ key ++ "`"
  | wrongType found expected => "invalid type: " ++ found ++ ", expected " ++ expected
  | wrongLength count expected =>
    "invalid length " ++ Text.natText count ++ ", expected " ++ expected

namespace Document

/-! ### Reading values -/

/-- What a draft is, in words; none if it has no meaning. -/
def describe? : Draft → Option String
  | .null => some "null"
  | .bool b => some ("boolean `" ++ (if b then "true" else "false") ++ "`")
  | .number n =>
    match n.value? with
    | some (.integer k) => some ("integer `" ++ Text.intText k ++ "`")
    | some (.floating x) => some ("floating point `" ++ String.ofList (Text.floatChars x) ++ "`")
    | none => none
  | .text (some s) => some ("string " ++ Text.quoted s)
  | .text none => none
  | .list _ => some "sequence"
  | .object _ => some "map"
  | .broken => none

/-- A value of the wrong kind where something else is expected. -/
def mistyped {α : Type} (d : Draft) (expected : String) : Except DocumentError α :=
  match describe? d with
  | some found => .error (.wrongType found expected)
  | none => .error .malformed

/-- A text. -/
def readText : Draft → Except DocumentError String
  | .text (some s) => .ok s
  | d => mistyped d "a string"

/-- A list of texts. -/
def readTexts : Draft → Except DocumentError (List String)
  | .list items => items.mapM readText
  | d => mistyped d "a sequence"

/-- A text or null. -/
def readText? : Draft → Except DocumentError (Option String)
  | .null => .ok none
  | d => (readText d).map some

/-- A list of texts, null being the empty one. -/
def readCategories : Draft → Except DocumentError (List String)
  | .null => .ok []
  | d => readTexts d

/-! ### Reading fields -/

/-- Fills a field of an object that has not come before. -/
def fill {α : Type} (key : String) (old : Option α) (read : Draft → Except DocumentError α)
    (d : Draft) : Except DocumentError (Option α) :=
  match old with
  | some _ => .error (.duplicateField key)
  | none => (read d).map some

/-- Passes over a value. -/
def pass {α : Type} (record : α) (d : Draft) : Except DocumentError α :=
  if d.isSound then .ok record else .error .malformed

/-- A field that an object must have. -/
def require {α : Type} (key : String) : Option α → Except DocumentError α
  | some value => .ok value
  | none => .error (.missingField key)

/-- The next item of a list of fields that must be there; `count` items have come before. -/
def nextField {α : Type} (expected : String) (count : Nat) (read : Draft → Except DocumentError α) :
    List Draft → Except DocumentError (α × List Draft)
  | [] => .error (.wrongLength count expected)
  | d :: ds => (read d).map (·, ds)

/-- The next item of a list of fields, or `absent` if the list has ended. -/
def nextField? {α : Type} (absent : α) (read : Draft → Except DocumentError α) :
    List Draft → Except DocumentError (α × List Draft)
  | [] => .ok (absent, [])
  | d :: ds => (read d).map (·, ds)

/-- A list of fields has no more items than there are fields. -/
def endOfFields {α : Type} (record : α) : List Draft → Except DocumentError α
  | [] => .ok record
  | _ :: _ => .error .malformed

/-! ### Entries -/

/-- The fields of an entry that have been read. -/
structure EntryFields where
  title : Option String := none
  startAt : Option String := none
  endAt : Option String := none
  description : Option (Option String) := none
  url : Option (Option String) := none
  imageUrl : Option (Option String) := none
  categories : Option (List String) := none

namespace EntryFields

/-- One field of an object. -/
def step (f : EntryFields) (field : Option String × Draft) : Except DocumentError EntryFields :=
  let d := field.2
  match field.1 with
  | none => .error .malformed
  | some key =>
    if key = "title" then (fill key f.title readText d).map fun v => { f with title := v }
    else if key = "startAt" then
      (fill key f.startAt readText d).map fun v => { f with startAt := v }
    else if key = "endAt" then (fill key f.endAt readText d).map fun v => { f with endAt := v }
    else if key = "description" then
      (fill key f.description readText? d).map fun v => { f with description := v }
    else if key = "url" then (fill key f.url readText? d).map fun v => { f with url := v }
    else if key = "imageUrl" then
      (fill key f.imageUrl readText? d).map fun v => { f with imageUrl := v }
    else if key = "categories" then
      (fill key f.categories readCategories d).map fun v => { f with categories := v }
    else pass f d

/-- The entry at the end of its object. -/
def entry (f : EntryFields) : Except DocumentError Entry := do
  let title ← require "title" f.title
  let startAt ← require "startAt" f.startAt
  let endAt ← require "endAt" f.endAt
  return {
    title, startAt, endAt
    description := f.description.join
    url := f.url.join
    imageUrl := f.imageUrl.join
    categories := f.categories.getD [] }

end EntryFields

/-- An entry from a list of its fields. -/
def entryOfList (items : List Draft) : Except DocumentError Entry := do
  let expected := "struct RawEvent with 7 elements"
  let (title, items) ← nextField expected 0 readText items
  let (startAt, items) ← nextField expected 1 readText items
  let (endAt, items) ← nextField expected 2 readText items
  let (description, items) ← nextField? none readText? items
  let (url, items) ← nextField? none readText? items
  let (imageUrl, items) ← nextField? none readText? items
  let (categories, items) ← nextField? [] readCategories items
  endOfFields { title, startAt, endAt, description, url, imageUrl, categories } items

/-- An entry as it stands in the document. -/
def readEntry : Draft → Except DocumentError Entry
  | .object fields => do
    let f ← fields.foldlM EntryFields.step {}
    f.entry
  | .list items => entryOfList items
  | d => mistyped d "struct RawEvent"

/-- A list of entries. -/
def readEntries : Draft → Except DocumentError (List Entry)
  | .list items => items.mapM readEntry
  | d => mistyped d "a sequence"

/-! ### Agendas -/

/-- The fields of an agenda that have been read. -/
structure AgendaFields where
  name : Option String := none
  entries : Option (List Entry) := none

namespace AgendaFields

/-- One field of an object. -/
def step (f : AgendaFields) (field : Option String × Draft) : Except DocumentError AgendaFields :=
  let d := field.2
  match field.1 with
  | none => .error .malformed
  | some key =>
    if key = "name" then (fill key f.name readText d).map fun v => { f with name := v }
    else if key = "events" then
      (fill key f.entries readEntries d).map fun v => { f with entries := v }
    else pass f d

/-- The agenda at the end of its object. -/
def agenda (f : AgendaFields) : Except DocumentError Agenda := do
  let name ← require "name" f.name
  return { name, entries := f.entries.getD [] }

end AgendaFields

/-- An agenda from a list of its fields. -/
def agendaOfList (items : List Draft) : Except DocumentError Agenda := do
  let (name, items) ← nextField "struct RawCalendar with 2 elements" 0 readText items
  let (entries, items) ← nextField? [] readEntries items
  endOfFields { name, entries } items

/-- An agenda as it stands in the document. -/
def readAgenda : Draft → Except DocumentError Agenda
  | .object fields => do
    let f ← fields.foldlM AgendaFields.step {}
    f.agenda
  | .list items => agendaOfList items
  | d => mistyped d "struct RawCalendar"

/-! ### Writing -/

/-- A field that is left out if there is no text. -/
def textField (key : String) : Option String → List (String × Value)
  | some s => [(key, .text s)]
  | none => []

/-- An entry as a value. -/
def entryValue (e : Entry) : Value :=
  .object <|
    [("title", .text e.title), ("startAt", .text e.startAt), ("endAt", .text e.endAt)] ++
    textField "description" e.description ++ textField "url" e.url ++
    textField "imageUrl" e.imageUrl ++
    (if e.categories.isEmpty then []
     else [("categories", .list (e.categories.map Value.text))])

/-- An agenda as a value. -/
def agendaValue (a : Agenda) : Value :=
  .object [("name", .text a.name), ("events", .list (a.entries.map entryValue))]

end Document

namespace Agenda

/-- Reads a document. -/
def ofText (s : String) : Except DocumentError Agenda :=
  let (draft, isWhole) := Draft.read s
  match Document.readAgenda draft with
  | .error e => .error e
  | .ok a => if isWhole then .ok a.normal else .error .malformed

/-- Writes a document. -/
def text (a : Agenda) : String := (Document.agendaValue a).pretty

end Agenda

end WallCalendar
