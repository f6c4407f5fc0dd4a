/-!
The command line: options that may stand before or after the subcommand, the subcommands and their own
options and operands.

An argument is taken in at once, but the value of an option and a row of operands are judged only when
the next option comes or the arguments end, so that an unknown option after them is told first.
-/
namespace DocBlocks

inductive UsageError where
  | unknownArgument
  | invalidSubcommand
  | invalidValue
  | argumentConflict
  | tooManyValues
  | help
  | version
  deriving DecidableEq, Repr

inductive OutputFormat where
  | text
  | json
  deriving DecidableEq, Repr

inductive Subcommand where
  | parse (paths : List String) (dryRun : Bool)
  | check (paths : List String) (diff : Bool) (format : OutputFormat)
  | list (format : OutputFormat)
  | generators
  deriving DecidableEq, Repr

structure CommandLine where
  root : Option String
  verbose : Bool
  quiet : Bool
  noColor : Bool
  command : Option Subcommand
  deriving DecidableEq, Repr

namespace Usage

inductive Level where
  | top | parse | check | list | generators
  deriving DecidableEq, Repr

inductive Switch where
  | verbose | quiet | noColor | dryRun | diff
  deriving DecidableEq, Repr

inductive Setting where
  | root | format
  deriving DecidableEq, Repr

inductive Flag where
  | switch (switch : Switch)
  | setting (setting : Setting)
  | help
  | version
  deriving DecidableEq, Repr

def Level.ofName? : String → Option Level
  | "parse" | "p" => some .parse
  | "check" => some .check
  | "list" => some .list
  | "generators" => some .generators
  | _ => none

def Level.takesPaths : Level → Bool
  | parse | check => true
  | _ => false

def Level.long? (level : Level) (name : String) : Option Flag :=
  match name, level with
  | "root", _ => some (.setting .root)
  | "verbose", _ => some (.switch .verbose)
  | "quiet", _ => some (.switch .quiet)
  | "no-color", _ => some (.switch .noColor)
  | "help", _ => some .help
  | "version", .top => some .version
  | "dry-run", .parse => some (.switch .dryRun)
  | "diff", .check => some (.switch .diff)
  | "format", .check | "format", .list => some (.setting .format)
  | _, _ => none

def Level.short? (level : Level) (letter : Char) : Option Flag :=
  match letter, level with
  | 'R', _ => some (.setting .root)
  | 'v', _ => some (.switch .verbose)
  | 'q', _ => some (.switch .quiet)
  | 'h', _ => some .help
  | 'V', .top => some .version
  | _, _ => none

structure Given where
  switches : List Switch
  root : Option String
  format : Option OutputFormat
  paths : List String
  deriving DecidableEq, Repr

namespace Given

def nothing : Given := ⟨[], none, none, []⟩

def has (g : Given) (switch : Switch) : Bool := g.switches.contains switch

def turnOn (g : Given) (switch : Switch) : Except UsageError Given :=
  if g.has switch then .error .argumentConflict
  else .ok { g with switches := switch :: g.switches }

def set (g : Given) (setting : Setting) (value : String) : Except UsageError Given :=
  match setting with
  | .root =>
      if g.root.isSome then .error .argumentConflict
      else if value.isEmpty then .error .invalidValue
      else .ok { g with root := some value }
  | .format =>
      if g.format.isSome then .error .argumentConflict
      else
        match value with
        | "text" => .ok { g with format := some .text }
        | "json" => .ok { g with format := some .json }
        | _ => .error .invalidValue

def addPaths (g : Given) (paths : List String) : Except UsageError Given :=
  if paths.contains "" then .error .invalidValue else .ok { g with paths := g.paths ++ paths }

def checked (g : Given) : Except UsageError Given :=
  if g.has .verbose && g.has .quiet then .error .argumentConflict else .ok g

end Given

inductive Pending where
  | nothing
  | setting (setting : Setting) (value : Option String)
  | paths (paths : List String)
  deriving DecidableEq, Repr

structure State where
  given : Given
  pending : Pending
  operandsOnly : Bool
  deriving DecidableEq, Repr

namespace State

def start : State := ⟨.nothing, .nothing, false⟩

def settle (s : State) : Except UsageError State := do
  let given ←
    match s.pending with
    | .nothing => .ok s.given
    | .setting _ none => .error .invalidValue
    | .setting setting (some value) => s.given.set setting value
    | .paths paths => s.given.addPaths paths
  .ok { s with given, pending := .nothing }

def awaitsValue (s : State) : Bool :=
  match s.pending with
  | .setting _ none => true
  | _ => false

def flag (s : State) : Flag → Except UsageError State
  | .switch switch => do
      let s ← s.settle
      .ok { s with given := ← s.given.turnOn switch }
  | .setting setting => do
      let s ← s.settle
      .ok { s with pending := .setting setting none }
  | .help => do
      let _ ← s.settle
      .error .help
  | .version => do
      let _ ← s.settle
      .error .version

def flagWith (s : State) (flag : Flag) (value : String) : Except UsageError State :=
  match flag with
  | .setting setting => do
      let s ← s.settle
      .ok { s with given := ← s.given.set setting value }
  | _ => .error .tooManyValues

def long (s : State) (level : Level) (text : List Char) : Except UsageError State :=
  let name := text.takeWhile (· != '=')
  match level.long? (String.ofList name), text.drop name.length with
  | none, _ => .error .unknownArgument
  | some flag, [] => s.flag flag
  | some flag, _ :: value => s.flagWith flag (String.ofList value)

def letters (s : State) (level : Level) : List Char → Except UsageError State
  | [] => .ok s
  | c :: rest =>
      match level.short? c with
      | none => .error .unknownArgument
      | some (.setting setting) =>
          match rest with
          | [] => s.flag (.setting setting)
          | '=' :: value => s.flagWith (.setting setting) (String.ofList value)
          | value => s.flagWith (.setting setting) (String.ofList value)
      | some flag => do letters (← s.flag flag) level rest

def operand (s : State) (level : Level) (text : String) : Except UsageError State :=
  if level.takesPaths then
    match s.pending with
    | .paths paths => .ok { s with pending := .paths (paths ++ [text]) }
    | _ => do
        let s ← s.settle
        .ok { s with pending := .paths [text] }
  else if level = .top then
    if s.operandsOnly && ((Level.ofName? text).isSome || text == "help") then
      .error .unknownArgument
    else .error .invalidSubcommand
  else .error .unknownArgument

def argument (s : State) (level : Level) (text : String) : Except UsageError State :=
  if s.operandsOnly then s.operand level text
  else
    match text.toList with
    | ['-', '-'] => .ok { s with operandsOnly := true }
    | '-' :: '-' :: name => s.long level name
    | '-' :: c :: rest => s.letters level (c :: rest)
    | _ =>
        match s.pending with
        | .setting setting none => .ok { s with pending := .setting setting (some text) }
        | _ => s.operand level text

def finish (s : State) : Except UsageError Given := do
  let s ← s.settle
  s.given.checked

end State

def readLevel (level : Level) (arguments : List String) : Except UsageError Given := do
  let s ← arguments.foldlM (fun s text => s.argument level text) State.start
  s.finish

def helpOn : List String → UsageError
  | [] => .help
  | [name] => if (Level.ofName? name).isSome || name == "help" then .help else .invalidSubcommand
  | _ => .invalidSubcommand

def readTop (s : State) : List String → Except UsageError (Given × Option (Level × Given))
  | [] => do .ok (← s.finish, none)
  | text :: rest =>
      if s.operandsOnly || s.awaitsValue then do readTop (← s.argument .top text) rest
      else if text = "help" then .error (helpOn rest)
      else
        match Level.ofName? text with
        | some level => do
            let below ← readLevel level rest
            .ok (← s.finish, some (level, below))
        | none => do readTop (← s.argument .top text) rest

def subcommand (given : Given) : Level → Option Subcommand
  | .top => none
  | .parse => some (.parse given.paths (given.has .dryRun))
  | .check => some (.check given.paths (given.has .diff) (given.format.getD .text))
  | .list => some (.list (given.format.getD .text))
  | .generators => some .generators

def parse (arguments : List String) : Except UsageError CommandLine := do
  let (top, below) ← readTop .start arguments
  let (level, given) := below.getD (.top, .nothing)
  .ok {
    root := given.root.orElse fun _ => top.root
    verbose := given.has .verbose || top.has .verbose
    quiet := given.has .quiet || top.has .quiet
    noColor := given.has .noColor || top.has .noColor
    command := subcommand given level }

end Usage

end DocBlocks
