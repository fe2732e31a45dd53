import WallCalendar.Json.Token

/-!
Drafts: what a text says as far as it is JSON.

A text is read to its first fault. What has been read by then is closed around the fault, which
stands in the draft as `broken`: an unfinished list has it as its last item, an unfinished object as
its last field. So whoever goes through a draft from left to right meets every value before the
fault first. The tokens drive a small machine whose stack holds the lists and objects that are still
open, and nesting costs no recursion.
-/

namespace WallCalendar.Json

/-- A value as far as it could be read. -/
inductive Draft where
  | null
  | bool (b : Bool)
  | number (n : Numeral)
  /-- A string; none if it holds half of a surrogate pair. -/
  | text (s : Option String)
  | list (items : List Draft)
  | object (fields : List (Option String × Draft))
  /-- The text is no JSON from here on. -/
  | broken
  deriving Repr

/-- A list or object that is still open, its content the latest first. -/
inductive Frame where
  | list (items : List Draft)
  | object (fields : List (Option String × Draft))
  /-- An object whose last key has no value yet. -/
  | member (fields : List (Option String × Draft)) (key : Option String)

/-- What may come next. -/
inductive Need where
  | value
  | itemOrEnd
  | keyOrEnd
  | key
  | colon
  | commaOrEnd
  deriving DecidableEq, Repr

/-- The state of the machine. -/
inductive Build where
  /-- In the middle of the text. -/
  | going (need : Need) (frames : List Frame)
  /-- A whole value has been read. -/
  | whole (draft : Draft)
  /-- The text went wrong, inside the value or after it. -/
  | faulty (draft : Draft)

namespace Build

/-- Closes all frames around a draft. -/
def close (d : Draft) : List Frame → Draft
  | [] => d
  | .list items :: frames => close (.list (d :: items).reverse) frames
  | .object fields :: frames => close (.object ((none, d) :: fields).reverse) frames
  | .member fields key :: frames => close (.object ((key, d) :: fields).reverse) frames

/-- The state after a fault. -/
def fail (frames : List Frame) : Build := .faulty (close .broken frames)

/-- Puts a finished value into the innermost frame. -/
def place (d : Draft) : List Frame → Build
  | [] => .whole d
  | .list items :: frames => .going .commaOrEnd (.list (d :: items) :: frames)
  | .member fields key :: frames => .going .commaOrEnd (.object ((key, d) :: fields) :: frames)
  | .object fields :: frames => fail (.object fields :: frames)

/-- A token where a value may start. -/
def start (token : Token) (frames : List Frame) : Build :=
  match token with
  | .null => place .null frames
  | .bool b => place (.bool b) frames
  | .number n => place (.number n) frames
  | .text s => place (.text s) frames
  | .openBracket => .going .itemOrEnd (.list [] :: frames)
  | .openBrace => .going .keyOrEnd (.object [] :: frames)
  | _ => fail frames

/-- One token. -/
def step : Build → Token → Build
  | .going .value frames, token => start token frames
  | .going .itemOrEnd (.list items :: frames), .closeBracket =>
    place (.list items.reverse) frames
  | .going .itemOrEnd frames, token => start token frames
  | .going .keyOrEnd (.object fields :: frames), .closeBrace =>
    place (.object fields.reverse) frames
  | .going .keyOrEnd (.object fields :: frames), .text key =>
    .going .colon (.member fields key :: frames)
  | .going .key (.object fields :: frames), .text key =>
    .going .colon (.member fields key :: frames)
  | .going .colon frames, .colon => .going .value frames
  | .going .commaOrEnd (.list items :: frames), .comma =>
    .going .value (.list items :: frames)
  | .going .commaOrEnd (.list items :: frames), .closeBracket =>
    place (.list items.reverse) frames
  | .going .commaOrEnd (.object fields :: frames), .comma =>
    .going .key (.object fields :: frames)
  | .going .commaOrEnd (.object fields :: frames), .closeBrace =>
    place (.object fields.reverse) frames
  | .going _ frames, _ => fail frames
  | .whole draft, _ => .faulty draft
  | .faulty draft, _ => .faulty draft

/-- What has been read at the end of the text, and whether it is the whole of it. -/
def finish : Build → Draft × Bool
  | .going _ frames => (close .broken frames, false)
  | .whole draft => (draft, true)
  | .faulty draft => (draft, false)

end Build

namespace Draft

/-- Reads a text: the draft, and whether the whole text is JSON. -/
def read (s : String) : Draft × Bool :=
  ((tokens s.toList).foldl Build.step (.going .value [])).finish

mutual

/-- Whether a draft holds no fault. -/
def isSound : Draft → Bool
  | .list items => allSound items
  | .object fields => fieldsSound fields
  | .broken => false
  | _ => true

/-- Whether no item holds a fault. -/
def allSound : List Draft → Bool
  | [] => true
  | item :: items => item.isSound && allSound items

/-- Whether no field holds a fault. -/
def fieldsSound : List (Option String × Draft) → Bool
  | [] => true
  | (_, value) :: fields => value.isSound && fieldsSound fields

end

end Draft

end WallCalendar.Json
