import WallCalendar.Template.Default

/-!
Page templates.

A template is a text with placeholders, names between double braces. Filling replaces the two known
placeholders and copies everything else, unknown names and stray braces included. Values are put in
as they are and never looked at again, so a value that looks like a placeholder stays as it is. A
template must have both placeholders.
-/

namespace WallCalendar

/-- The name under which a placeholder is missing. -/
inductive TemplateError where
  | missingPlaceholder (key : String)
  deriving DecidableEq, Repr

/-- The wording of an error. -/
def TemplateError.message : TemplateError → String
  | missingPlaceholder key => "Template has no \x7b\x7b" ++ key ++ "\x7d\x7d placeholder"

/-- A text with both placeholders. -/
structure Template where
  source : String
  deriving DecidableEq, Repr

namespace Template

/-- The names of the placeholders. -/
def keys : List String := ["name", "content"]

/-- The braces before a name. -/
def opening : List Char := ['\x7b', '\x7b']

/-- The braces after a name. -/
def closing : List Char := ['\x7d', '\x7d']

/-- A placeholder as it is written. -/
def placeholder (key : String) : List Char := opening ++ key.toList ++ closing

/-- Whether `part` occurs in a text. -/
def occursIn (part : List Char) : List Char → Bool
  | [] => part.isEmpty
  | c :: cs => part.isPrefixOf (c :: cs) || occursIn part cs

/-- A template, provided that no placeholder is missing. -/
def ofSource (source : String) : Except TemplateError Template :=
  match keys.find? fun key => !occursIn (placeholder key) source.toList with
  | some key => .error (.missingPlaceholder key)
  | none => .ok ⟨source⟩

/-! ### Filling -/

/-- What follows `part` in a text that starts with it. -/
def after? : List Char → List Char → Option (List Char)
  | [], cs => some cs
  | _ :: _, [] => none
  | p :: part, c :: cs => if p = c then after? part cs else none

/-- What stands before the first `part` in a text, and what follows it. -/
def cut? (part : List Char) : List Char → Option (List Char × List Char)
  | [] => (after? part []).map fun rest => ([], rest)
  | c :: cs =>
    match after? part (c :: cs) with
    | some rest => some ([], rest)
    | none => (cut? part cs).map fun (front, rest) => (c :: front, rest)

/-- The value of the name that stands before the first closing braces, and what follows them. -/
def valueAt? (values : List (String × String)) (cs : List Char) :
    Option (List Char × List Char) := do
  let (key, rest) ← cut? closing cs
  let value ← values.lookup (String.ofList key)
  return (value.toList, rest)

theorem eq_append_of_after? {part cs rest : List Char} (h : after? part cs = some rest) :
    cs = part ++ rest := by
  fun_induction after? part cs with
  | case1 cs => simpa using h
  | case2 => simp at h
  | case3 part c cs ih => rw [List.cons_append, ← ih h]
  | case4 => simp at h

theorem eq_append_of_cut? {part cs front rest : List Char} (h : cut? part cs = some (front, rest)) :
    cs = front ++ (part ++ rest) := by
  fun_induction cut? part cs generalizing front with
  | case1 =>
    obtain ⟨r, hr, heq⟩ := Option.map_eq_some_iff.1 h
    cases heq
    rw [List.nil_append, eq_append_of_after? hr]
  | case2 c cs r hr =>
    cases h
    rw [List.nil_append, eq_append_of_after? hr]
  | case3 c cs _ ih =>
    obtain ⟨⟨f, r⟩, hr, heq⟩ := Option.map_eq_some_iff.1 h
    cases heq
    rw [List.cons_append, ← ih hr]

theorem length_of_valueAt? {values : List (String × String)} {cs value rest : List Char}
    (h : valueAt? values cs = some (value, rest)) : rest.length ≤ cs.length := by
  obtain ⟨⟨key, r⟩, hcut, h⟩ := Option.bind_eq_some_iff.1 h
  obtain ⟨text, _, h⟩ := Option.bind_eq_some_iff.1 h
  cases h
  rw [eq_append_of_cut? hcut, List.length_append, List.length_append]
  omega

/-- Replaces the placeholders of a text from left to right. Where the name after opening braces is
not known, one brace is copied and the search goes on with the next. -/
def fillChars (values : List (String × String)) (cs : List Char) : List Char :=
  match _braces : cut? opening cs with
  | none => cs
  | some (front, rest) =>
    match _named : valueAt? values rest with
    | some (value, rest) => front ++ value ++ fillChars values rest
    | none => front ++ '\x7b' :: fillChars values ('\x7b' :: rest)
termination_by cs.length
decreasing_by
  · have := length_of_valueAt? _named
    rw [eq_append_of_cut? _braces]
    simp only [opening, List.length_append, List.length_cons]
    omega
  · rw [eq_append_of_cut? _braces]
    simp only [opening, List.length_append, List.length_cons]
    omega

/-- The page with a name and content put in. -/
def fill (t : Template) (name content : String) : String :=
  String.ofList (fillChars [("name", name), ("content", content)] t.source.toList)

end Template

end WallCalendar
