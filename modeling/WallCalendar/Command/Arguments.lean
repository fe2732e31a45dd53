import WallCalendar.Command.Request
import WallCalendar.Command.Settings

/-!
Reading command lines.

The first word that is no option names the command; what follows belongs to it. Options and paths
mix freely, and after a bare `--` everything is a path. An option takes its value from the same
argument or from the next one. A value taken from the next argument, and a run of paths, stay
pending: they are checked when the next known option comes, or a path after an option, or the end.
So an unknown option is reported before a bad value that stands right before it. Arguments are read
one by one by a machine whose state is what has been given so far.
-/

namespace WallCalendar

/-- Why a command line asks for nothing that can be done. -/
inductive Refusal where
  /-- There are no arguments at all. -/
  | noArguments
  /-- There is no command. -/
  | noCommand
  /-- Help is asked for. -/
  | help
  /-- The version is asked for. -/
  | version
  /-- The word is no command. -/
  | unknownCommand
  /-- The command has no such option. -/
  | unknownOption
  /-- No path is given. -/
  | noFiles
  /-- An option that takes a value has none. -/
  | missingValue
  /-- A path is empty. -/
  | emptyPath
  /-- A value is not among the choices. -/
  | unknownChoice
  /-- A value cannot be read. -/
  | unreadableValue
  /-- An option is given twice. -/
  | repeatedOption
  /-- An option that takes no value has one. -/
  | unexpectedValue
  deriving DecidableEq, Repr

/-- Whether the command line is at fault, and does not just ask about the program. -/
def Refusal.isFault : Refusal → Bool
  | help => false
  | version => false
  | _ => true

namespace Arguments

/-! ### Options -/

/-- The commands by name. -/
inductive Verb where
  | render
  | merge
  | layout
  deriving DecidableEq, Repr

/-- The options of all commands. -/
inductive Flag where
  | year
  | name
  | template
  | output
  | zone
  | format
  | quiet
  | help
  deriving DecidableEq, Repr

/-- The command of a name. -/
def Verb.ofName? (s : String) : Option Verb :=
  [("render", .render), ("merge", .merge), ("layout", .layout)].lookup s

namespace Flag

/-- The long name, without its hyphens. -/
def longName : Flag → String
  | year => "year"
  | name => "name"
  | template => "template"
  | output => "output"
  | zone => "utc-offset"
  | format => "format"
  | quiet => "quiet"
  | help => "help"

/-- The letter, if there is one. -/
def letter? : Flag → Option Char
  | year => some 'y'
  | name => some 'n'
  | template => some 't'
  | output => some 'o'
  | zone => none
  | format => some 'f'
  | quiet => some 'q'
  | help => some 'h'

/-- Whether the option takes a value. -/
def takesValue : Flag → Bool
  | quiet => false
  | help => false
  | _ => true

end Flag

/-- The options of a command. -/
def Verb.flags : Verb → List Flag
  | render => [.year, .name, .template, .output, .zone, .quiet, .help]
  | merge => [.name, .output, .quiet, .help]
  | layout => [.year, .format, .zone, .quiet, .help]

/-! ### The shape of an argument -/

/-- What an argument looks like. -/
inductive Shape where
  /-- The bare `--`. -/
  | divider
  /-- A long option and the value attached to it. -/
  | long (name : List Char) (value : Option (List Char))
  /-- Letters after one hyphen. -/
  | letters (cs : List Char)
  /-- Anything else, the bare hyphen included. -/
  | word

/-- Splits a long option at its first equals sign. -/
def splitEquals : List Char → List Char × Option (List Char)
  | [] => ([], none)
  | '=' :: cs => ([], some cs)
  | c :: cs =>
    let (name, value) := splitEquals cs
    (c :: name, value)

/-- The shape of an argument. -/
def Shape.of (arg : String) : Shape :=
  match arg.toList with
  | ['-', '-'] => .divider
  | '-' :: '-' :: cs => let (name, value) := splitEquals cs; .long name value
  | ['-'] => .word
  | '-' :: cs => .letters cs
  | _ => .word

/-! ### What has been given -/

/-- The values given so far. -/
structure Given where
  files : List String := []
  year : Option Int := none
  name : Option String := none
  template : Option String := none
  output : Option String := none
  zone : Option Offset := none
  format : Option ReportFormat := none
  quiet : Bool := false

/-- Sets a value that must not be there yet. -/
def once {α : Type} (old : Option α) (new : Except Refusal α) : Except Refusal (Option α) :=
  match old with
  | some _ => .error .repeatedOption
  | none => new.map some

/-- A path must not be empty. -/
def readPath (value : String) : Except Refusal String :=
  if value.isEmpty then .error .emptyPath else .ok value

/-- Reads the year of an option. -/
def readYear (value : String) : Except Refusal Int :=
  match readYear? value with
  | some year => .ok year
  | none => .error .unreadableValue

/-- Reads the offset of an option. -/
def readZone (value : String) : Except Refusal Offset :=
  match Offset.parse value with
  | some offset => .ok offset
  | none => .error .unreadableValue

/-- Reads the format of an option. -/
def readFormat (value : String) : Except Refusal ReportFormat :=
  if value = "json" then .ok .json
  else if value = "pretty" then .ok .pretty
  else .error .unknownChoice

namespace Given

/-- Gives a value to an option. -/
def assign (g : Given) (flag : Flag) (value : String) : Except Refusal Given :=
  match flag with
  | .year => (once g.year (readYear value)).map fun v => { g with year := v }
  | .name => (once g.name (.ok value)).map fun v => { g with name := v }
  | .template => (once g.template (readPath value)).map fun v => { g with template := v }
  | .output => (once g.output (readPath value)).map fun v => { g with output := v }
  | .zone => (once g.zone (readZone value)).map fun v => { g with zone := v }
  | .format => (once g.format (readFormat value)).map fun v => { g with format := v }
  | .quiet => .error .unexpectedValue
  | .help => .error .unexpectedValue

/-- Gives an option that takes no value. -/
def turnOn (g : Given) (flag : Flag) : Except Refusal Given :=
  match flag with
  | .quiet => if g.quiet then .error .repeatedOption else .ok { g with quiet := true }
  | .help => .error .help
  | _ => .error .missingValue

/-- The command asked for, which needs a path. -/
def command (g : Given) (verb : Verb) : Except Refusal Command :=
  if g.files.isEmpty then .error .noFiles
  else
    .ok <|
      match verb with
      | .render => .render ⟨g.files, g.year, g.name, g.template, g.output, g.zone⟩
      | .merge => .merge ⟨g.files, g.name, g.output⟩
      | .layout => .layout ⟨g.files, g.year, g.format.getD .pretty, g.zone⟩

end Given

/-! ### The machine -/

/-- What has been read and not checked yet. -/
inductive Pending where
  | nothing
  /-- An option whose value should come next. -/
  | awaiting (flag : Flag)
  /-- An option with its value. -/
  | valued (flag : Flag) (value : String)
  /-- Paths in a row. -/
  | paths (files : List String)

/-- The state while the arguments of a command are read. -/
structure State where
  given : Given := {}
  pending : Pending := .nothing
  /-- Whether everything is a path from here on. -/
  pathsOnly : Bool := false

namespace State

/-- Checks what is pending. -/
def settle (s : State) : Except Refusal State :=
  match s.pending with
  | .nothing => .ok s
  | .awaiting _ => .error .missingValue
  | .valued flag value =>
    (s.given.assign flag value).map fun g => { s with given := g, pending := .nothing }
  | .paths files =>
    (files.mapM readPath).map fun files =>
      { s with given := { s.given with files := s.given.files ++ files }, pending := .nothing }

/-- One more path. -/
def addPath (s : State) (path : String) : Except Refusal State :=
  match s.pending with
  | .paths files => .ok { s with pending := .paths (files ++ [path]) }
  | _ => s.settle.map fun s => { s with pending := .paths [path] }

/-- An option whose value is attached to it. -/
def attach (s : State) (flag : Flag) (value : String) : Except Refusal State := do
  let s ← s.settle
  let g ← s.given.assign flag value
  return { s with given := g }

/-- An option whose value should come next. -/
def await (s : State) (flag : Flag) : Except Refusal State :=
  s.settle.map fun s => { s with pending := .awaiting flag }

/-- An option that takes no value. -/
def turnOn (s : State) (flag : Flag) : Except Refusal State := do
  let s ← s.settle
  let g ← s.given.turnOn flag
  return { s with given := g }

/-- A long option. -/
def long (verb : Verb) (s : State) (name : List Char) (value : Option (List Char)) :
    Except Refusal State :=
  match verb.flags.find? (·.longName.toList = name), value with
  | none, _ => .error .unknownOption
  | some flag, some value =>
    if flag.takesValue then s.attach flag (String.ofList value) else .error .unexpectedValue
  | some flag, none => if flag.takesValue then s.await flag else s.turnOn flag

/-- Letters after one hyphen. A letter that takes a value takes all that follows it. -/
def letters (verb : Verb) (s : State) : List Char → Except Refusal State
  | [] => .ok s
  | c :: cs =>
    match verb.flags.find? (·.letter? = some c) with
    | none => .error .unknownOption
    | some flag =>
      if flag.takesValue then
        match cs with
        | [] => s.await flag
        | '=' :: value => s.attach flag (String.ofList value)
        | value => s.attach flag (String.ofList value)
      else (s.turnOn flag).bind fun s => s.letters verb cs

/-- A word: the value that is awaited, or a path. -/
def word (s : State) (arg : String) : Except Refusal State :=
  match s.pending with
  | .awaiting flag => .ok { s with pending := .valued flag arg }
  | _ => s.addPath arg

/-- Whether whatever comes next is the value of an option. Offsets may start with a hyphen. -/
def takesAnything (s : State) : Bool :=
  match s.pending with
  | .awaiting .zone => true
  | _ => false

/-- One argument of a command. -/
def step (verb : Verb) (s : State) (arg : String) : Except Refusal State :=
  if s.pathsOnly then s.addPath arg
  else if s.takesAnything then s.word arg
  else
    match Shape.of arg with
    | .divider => .ok { s with pathsOnly := true }
    | .long name value => s.long verb name value
    | .letters cs => s.letters verb cs
    | .word => s.word arg

end State

/-- The arguments of a command. -/
def readVerb (quiet : Bool) (verb : Verb) (args : List String) : Except Refusal Request := do
  let s ← args.foldlM (State.step verb) {}
  let s ← s.settle
  let command ← s.given.command verb
  return ⟨quiet || s.given.quiet, command⟩

/-! ### Before the command -/

/-- Help on a command, which must exist. -/
def readHelp : List String → Refusal
  | [] => .help
  | [word] => if (Verb.ofName? word).isSome || word = "help" then .help else .unknownCommand
  | _ => .unknownCommand

/-- A long option before the command: the options that are on afterwards. -/
def topLong (quiet : Bool) (name : List Char) (value : Option (List Char)) : Except Refusal Bool :=
  if ["quiet", "help", "version"].contains (String.ofList name) then
    if value.isSome then .error .unexpectedValue
    else if String.ofList name = "help" then .error .help
    else if String.ofList name = "version" then .error .version
    else if quiet then .error .repeatedOption
    else .ok true
  else .error .unknownOption

/-- Letters before the command. -/
def topLetters (quiet : Bool) : List Char → Except Refusal Bool
  | [] => .ok quiet
  | 'q' :: cs => if quiet then .error .repeatedOption else topLetters true cs
  | 'h' :: _ => .error .help
  | 'V' :: _ => .error .version
  | _ => .error .unknownOption

/-- Nothing but a divider, or a word after one, which names no command there. -/
def readDivided (quiet : Bool) : List String → Refusal
  | [] => if quiet then .noCommand else .noArguments
  | word :: _ =>
    if (Verb.ofName? word).isSome || word = "help" then .unknownOption else .unknownCommand

/-- A command line, `quiet` saying whether that option has come already. -/
def readFrom (quiet : Bool) : List String → Except Refusal Request
  | [] => .error (if quiet then .noCommand else .noArguments)
  | arg :: args =>
    match Verb.ofName? arg with
    | some verb => readVerb quiet verb args
    | none =>
      if arg = "help" then .error (readHelp args)
      else
        match Shape.of arg with
        | .divider => .error (readDivided quiet args)
        | .long name value => (topLong quiet name value).bind fun quiet => readFrom quiet args
        | .letters cs => (topLetters quiet cs).bind fun quiet => readFrom quiet args
        | .word => .error .unknownCommand

end Arguments

/-- The request of a command line. -/
def Request.ofArguments (args : List String) : Except Refusal Request :=
  Arguments.readFrom false args

end WallCalendar
