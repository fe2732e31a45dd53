import WallCalendar.Text.Basic

/-!
Agendas: named lists of entries as documents state them.

An entry keeps the texts of its two ends; nothing here decides whether they can be read. Some texts
mean nothing by themselves: blanks around the ends, blank optional texts, blank categories. The
normal form drops them, and a document is always read into normal form.
-/

namespace WallCalendar

/-- One entry of an agenda, with the ends as written. -/
structure Entry where
  title : String
  startAt : String
  endAt : String
  description : Option String := none
  url : Option String := none
  imageUrl : Option String := none
  categories : List String := []
  deriving DecidableEq, Repr

/-- A named list of entries. -/
structure Agenda where
  name : String
  entries : List Entry
  deriving DecidableEq, Repr

/-- Trims every category and drops those that are blank. -/
def normalCategories (categories : List String) : List String :=
  (categories.map Text.trim).filter (!·.isEmpty)

/-- The ends trimmed, blank texts absent, categories trimmed. Texts that are not blank keep their
blanks, and so does the title. -/
def Entry.normal (e : Entry) : Entry :=
  { title := e.title
    startAt := Text.trim e.startAt
    endAt := Text.trim e.endAt
    description := e.description.bind Text.nonBlank
    url := e.url.bind Text.nonBlank
    imageUrl := e.imageUrl.bind Text.nonBlank
    categories := normalCategories e.categories }

/-- Every entry in normal form, the name as it is. -/
def Agenda.normal (a : Agenda) : Agenda := { a with entries := a.entries.map Entry.normal }

/-- Joins agendas in order. Without a name of its own the whole takes the names of its parts, those
that are not blank, with plus signs between them. -/
def Agenda.merge (name : Option String) (agendas : List Agenda) : Agenda :=
  { name := name.getD
      (String.intercalate " + " ((agendas.map Agenda.name).filter (!Text.isBlankText ·)))
    entries := agendas.flatMap Agenda.entries }

end WallCalendar
