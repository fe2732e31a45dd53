/-!
Markup: escaping, and the tags that a page is written with.

Tags are written as they are given, and so is what stands between them; a text that comes from
outside has to be escaped before it is put in. Escaped, it can neither open a tag nor end a value.
Escaping replaces one special character after the other through the whole text; the ampersand goes
first, because the others bring new ones in.
-/

namespace WallCalendar.Markup

/-! ### Escaping -/

/-- The special characters and what replaces them, in the order of replacement. -/
def entities : List (Char × String) :=
  [('&', "&amp;"), ('<', "&lt;"), ('>', "&gt;"), ('\"', "&quot;"), ('\x27', "&#39;")]

/-- Puts `replacement` in the place of every `c`. -/
def replaceChar (c : Char) (replacement : List Char) (cs : List Char) : List Char :=
  cs.flatMap fun d => if d = c then replacement else [d]

/-- Replaces the special characters, one after the other. -/
def escapeChars (cs : List Char) : List Char :=
  entities.foldl (fun cs e => replaceChar e.1 e.2.toList cs) cs

/-- A text safe to stand in content and in attribute values. -/
def escape (s : String) : String := String.ofList (escapeChars s.toList)

/-! ### Tags -/

/-- An attribute and its value, with a blank before them. -/
def assignment (a : String × String) : String := " " ++ a.1 ++ "=\"" ++ a.2 ++ "\""

/-- An opening tag with its attributes. -/
def openTag (tag : String) (attributes : List (String × String)) : String :=
  "<" ++ tag ++ String.join (attributes.map assignment) ++ ">"

/-- A closing tag. -/
def closeTag (tag : String) : String := "</" ++ tag ++ ">"

end WallCalendar.Markup
