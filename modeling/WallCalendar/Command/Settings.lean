import WallCalendar.Offset
import WallCalendar.Text.Basic

/-!
Settings: what the environment says when the command line does not.

A variable that is blank counts as not set. Year and offset are trimmed before they are read, the
path of the template is taken as it is. The year is looked at first; messages quote a value
untrimmed.
-/

namespace WallCalendar

/-- Why settings cannot be read. -/
inductive SettingsError where
  | invalidOffset (value : String)
  | invalidVariable (key value : String)
  deriving DecidableEq, Repr

/-- The wording of an error. -/
def SettingsError.message : SettingsError → String
  | invalidOffset value => "Invalid UTC offset '" ++ value ++ "', expected +HH:MM, -HH:MM or Z"
  | invalidVariable key value => "Invalid " ++ key ++ " '" ++ value ++ "'"

/-- Defaults for what the command line leaves open. -/
structure Settings where
  year : Option Int := none
  template : Option String := none
  zone : Option Offset := none
  deriving DecidableEq, Repr

/-- Reads an offset setting, or says that it is none. -/
def Offset.ofSetting (value : String) : Except SettingsError Offset :=
  match Offset.parse value with
  | some offset => .ok offset
  | none => .error (.invalidOffset value)

/-- Reads a year: a sign or none and digits, within 32 bits. -/
def readYear? (value : String) : Option Int :=
  match Text.readInt? value.toList with
  | some n => if -2147483648 ≤ n ∧ n ≤ 2147483647 then some n else none
  | none => none

namespace Settings

/-- The variable that holds the year. -/
def yearKey : String := "YEARGRID_YEAR"

/-- The variable that holds the offset. -/
def zoneKey : String := "YEARGRID_UTC_OFFSET"

/-- The variable that holds the path of the template. -/
def templateKey : String := "YEARGRID_TEMPLATE"

/-- Reads the year setting. -/
def readYear (value : String) : Except SettingsError Int :=
  match readYear? (Text.trim value) with
  | some year => .ok year
  | none => .error (.invalidVariable yearKey value)

/-- Reads a variable that is set and not blank. -/
def readVariable {α : Type} (read : String → Except SettingsError α) :
    Option String → Except SettingsError (Option α)
  | some value => (read value).map some
  | none => .ok none

/-- Reads the settings through a lookup of variables. -/
def ofVariables (lookup : String → Option String) : Except SettingsError Settings := do
  let given (key : String) := (lookup key).bind Text.nonBlank
  let year ← readVariable readYear (given yearKey)
  let zone ← readVariable Offset.ofSetting (given zoneKey)
  return { year, zone, template := given templateKey }

end Settings

end WallCalendar
