import Std.Time.Zoned
import WallCalendar.Command.Run

/-!
The command line.

Arguments and environment say what to do. Every file that the command may read is loaded, the text
is made of what was loaded, and then it is printed or written. Where nothing says otherwise the year
is the current one, and the zone is the offset that the machine is at.
-/

namespace WallCalendar

/-- Loads a file that should hold text. -/
def loadText (path : String) : IO (Except FileFault String) := do
  try return .ok (← IO.FS.readFile path)
  catch error => return .error ⟨toString error⟩

/-- Loads all files that a command may read. -/
def loadSources (paths : List String) : IO Reader := do
  let loaded ← paths.mapM fun path => return (path, ← loadText path)
  return fun path => (loaded.lookup path).getD (.error ⟨""⟩)

/-- Prints a text, or writes it to a file. -/
def deliver (text : String) : Option String → IO (Except Failure Unit)
  | none => do
    IO.print text
    return .ok ()
  | some path => do
    try
      IO.FS.writeFile path text
      return .ok ()
    catch error => return .error (.unwritten path ⟨toString error⟩)

/-- The current year and the offset of the machine. Day 719163 is the first of 1970. -/
def loadDefaults : IO Defaults := do
  let now ← Std.Time.Timestamp.now
  let rules ← Std.Time.Database.defaultGetLocalZoneRules
  let zone := (Offset.ofSeconds? (rules.timezoneAt now).offset.second.val).getD .utc
  let seconds := now.toSecondsSinceUnixEpoch.val + zone.seconds
  return { year := yearOf (719163 + seconds / 86400), zone }

/-- The settings of the environment. -/
def loadSettings : IO (Except SettingsError Settings) := do
  let keys := [Settings.yearKey, Settings.zoneKey, Settings.templateKey]
  let found ← keys.mapM fun key => return (key, ← IO.getEnv key)
  return Settings.ofVariables fun key => (found.lookup key).join

/-- Runs a command. -/
def execute (c : Command) (settings : Settings) : IO (Except Failure Unit) := do
  let read ← loadSources (c.sources settings)
  match c.text read settings (← loadDefaults) with
  | .error failure => return .error failure
  | .ok text => deliver text c.destination

end WallCalendar

open WallCalendar in
/-- Does what the arguments ask for. -/
def main (arguments : List String) : IO UInt32 := do
  match Request.ofArguments arguments with
  | .error refusal => return if refusal.isFault then 2 else 0
  | .ok request =>
    match ← loadSettings with
    | .error error =>
      IO.eprintln ("Error: " ++ error.message)
      return 1
    | .ok settings =>
      match ← execute request.command settings with
      | .ok () => return 0
      | .error failure =>
        IO.eprintln ("Error: " ++ String.intercalate "\n  " failure.causes)
        return 1
