import DocBlocks.Builtin.Registry
import DocBlocks.Command.Json
import DocBlocks.Command.Usage
import DocBlocks.Diff.Lines
import DocBlocks.Workspace.Process
import DocBlocks.Workspace.Scan

/-!
Running the program on a tree of files: what it prints, what it exits with and which files it leaves.
-/
namespace DocBlocks

structure Surroundings where
  files : Files
  current : Path
  allowsColor : Bool

structure Outcome where
  exitCode : Nat
  output : String
  errors : String
  files : Files

namespace Command

structure Style where
  on : String
  off : String
  deriving DecidableEq, Repr

def bold : Style := ⟨"\x1b[1m", "\x1b[0m"⟩

def red : Style := ⟨"\x1b[31m", "\x1b[39m"⟩

def green : Style := ⟨"\x1b[32m", "\x1b[39m"⟩

def yellow : Style := ⟨"\x1b[33m", "\x1b[39m"⟩

def styled (color : Bool) (style : Style) (text : String) : String :=
  if color then style.on ++ text ++ style.off else text

def line (text : String) : String := text ++ "\n"

def lines (texts : List String) : String := String.join (texts.map line)

def counted (n : Nat) (noun : String) : String := toString n ++ " " ++ noun

inductive Failure where
  | error (e : Error)
  | message (text : String)

def Failure.report (color : Bool) : Failure → String
  | error e =>
      line (styled color red "error:" ++ " " ++ e.message) ++
        lines (e.help?.toList.map ("  help: " ++ ·))
  | message text => line (styled color red "error:" ++ " " ++ text)

structure Target where
  root : Path
  paths : List Path

namespace Target

def resolve (s : Surroundings) (root : Option String) (paths : List String) :
    Except Failure Target :=
  let isDirectory (path : String) : Bool := s.files.isDirectory (s.current.join ⟨path⟩)
  let chosen (directory : String) : Except Failure Target :=
    .error <| .message <| Error.marked directory ++
      " is a directory; pass a single directory to use it as the root"
  match root, paths, paths.find? isDirectory with
  | none, [directory], some _ => .ok ⟨⟨directory⟩, []⟩
  | _, _, some directory => chosen directory
  | some root, paths, none => .ok ⟨⟨root⟩, paths.map Path.mk⟩
  | none, paths, none => .ok ⟨s.current, paths.map Path.mk⟩

def scan (s : Surroundings) (t : Target) : Except Failure Workspace :=
  (Workspace.scan s.files s.current t.root).1.mapError .error

def process (s : Surroundings) (t : Target) (w : Workspace) : ProcessResult :=
  let work :=
    if t.paths.isEmpty then w.process s.files else w.processPaths s.files s.current t.paths
  (work.run (.start Builtin.registry)).1

end Target

def relative (w : Workspace) (path : Path) : String := path.relativeText w.root

def errorLines (color : Bool) (w : Workspace) (r : ProcessResult) : List String :=
  if r.errors.isEmpty then []
  else
    ["", "Documents that could not be processed:"] ++ r.errors.map fun e =>
      "  " ++ styled color red "error:" ++ " " ++ relative w e.path ++ ": " ++ e.message

def finished (color : Bool) (w : Workspace) (r : ProcessResult) (files : Files)
    (output : List String) : Outcome :=
  let failure :=
    if r.errors.isEmpty then ""
    else (Failure.message (counted r.errors.length "document(s) could not be processed")).report color
  { exitCode := if r.errors.isEmpty then 0 else 2
    output := lines output
    errors := lines (errorLines color w r) ++ failure
    files := files }

def failed (color : Bool) (before : String) (f : Failure) (files : Files) : Outcome :=
  ⟨2, "", before ++ f.report color, files⟩

def parse (s : Surroundings) (color : Bool) (root : Option String) (paths : List String) (dryRun : Bool) :
    Except Failure Outcome := do
  let t ← Target.resolve s root paths
  let w ← t.scan s
  let r := t.process s w
  let changed := r.changed.map fun pass => "  " ++ relative w pass.path
  if r.changed.isEmpty then
    .ok (finished color w r s.files ["All documents are already up to date."])
  else if dryRun then
    let title := "Dry run: would update " ++ counted r.changed.length "document(s):"
    .ok (finished color w r s.files (title :: changed))
  else
    match r.writeUpdates s.files with
    | (.error e, files) =>
        .ok (failed color (lines (errorLines color w r)) (.error (.file e)) files)
    | (.ok written, files) =>
        let title := "Updated " ++ counted written "document(s):"
        .ok (finished color w r files (title :: changed))

def reportJson (r : BlockReport) : JsonValue :=
  let fields (status : String) (reason : Option String) : JsonValue :=
    .object <|
      [("column", .number r.column), ("command", .string r.command), ("line", .number r.line)] ++
      (reason.map fun text => ("reason", JsonValue.string text)).toList ++
      [("status", .string status)]
  match r.status with
  | .generated => fields "generated" none
  | .reserved => fields "reserved" none
  | .unclosed => fields "unclosed" none
  | .unresolved reason => fields "unresolved" (some reason)
  | .failed reason => fields "failed" (some reason)

def documentJson (file : String) (blocks : List BlockReport) : JsonValue :=
  .object [("blocks", .array (blocks.map reportJson)), ("file", .string file)]

def checkJson (w : Workspace) (r : ProcessResult) : JsonValue :=
  .object
    [("errors", .array (r.errors.map fun e =>
        .object [("file", .string (relative w e.path)), ("message", .string e.message)])),
      ("ok", .bool false),
      ("stale", .array (r.changed.map fun pass => documentJson (relative w pass.path) pass.blocks))]

def passedJson : JsonValue :=
  .object [("ok", .bool true), ("stale", .array []), ("errors", .array [])]

def diffText (color : Bool) (pass : DocumentPass) : String :=
  String.join <| (Diff.ofTexts pass.original pass.text).map fun (mark, text) =>
    match mark with
    | .removed => "  " ++ styled color red ("-" ++ text)
    | .added => "  " ++ styled color green ("+" ++ text)
    | .kept => "   " ++ text

def staleText (color : Bool) (diff : Bool) (w : Workspace) (r : ProcessResult) : String :=
  if r.changed.isEmpty then ""
  else
    lines ["", "Stale documents:"] ++ String.join (r.changed.map fun pass =>
      line ("  " ++ relative w pass.path) ++ if diff then diffText color pass else "")

def check (s : Surroundings) (color : Bool) (root : Option String) (paths : List String) (diff : Bool)
    (format : OutputFormat) : Except Failure Outcome := do
  let t ← Target.resolve s root paths
  let w ← t.scan s
  let r := t.process s w
  let stale := r.changed.length
  let errors := r.errors.length
  let exitCode := if errors > 0 then 2 else if stale > 0 then 1 else 0
  match format with
  | .json =>
      let value := if r.isOk then passedJson else checkJson w r
      .ok ⟨exitCode, line value.text, "", s.files⟩
  | .text =>
      if r.isOk then .ok ⟨0, line "Check passed: all documents are up to date.", "", s.files⟩
      else
        let summary := counted stale "stale document(s), " ++ counted errors "error(s)"
        .ok ⟨exitCode, "",
          lines ["Check failed.", "  errors: " ++ toString errors,
            "  stale documents: " ++ toString stale] ++
          lines (errorLines color w r) ++ staleText color diff w r ++
          lines ["", styled color yellow summary], s.files⟩

def statusText (color : Bool) : BlockStatus → String
  | .generated => styled color green "ready"
  | .reserved => "reserved"
  | .unclosed => styled color yellow "unclosed"
  | .unresolved reason => styled color yellow ("unresolved: " ++ reason)
  | .failed reason => styled color red ("invalid: " ++ reason)

def blockLine (color : Bool) (r : BlockReport) : String :=
  "    " ++ r.command ++ " " ++ toString r.line ++ ":" ++ toString r.column ++ " [" ++
    statusText color r.status ++ "]"

def listing (files : Files) (w : Workspace) : Work (Except Error (List (String × List BlockReport))) :=
  ExceptT.run <| w.generatable.mapM fun d => do
    match files.read d.path with
    | .error e => throw (.file e)
    | .ok text =>
        let fragments ← d.fragments text.toList
        return (relative w d.path, fragments.filterMap Fragment.report?)

def list (s : Surroundings) (color : Bool) (root : Option String) (format : OutputFormat) :
    Except Failure Outcome := do
  let t ← Target.resolve s root []
  let w ← t.scan s
  let documents ← ((listing s.files w).run (.start Builtin.registry)).1.mapError Failure.error
  let output :=
    match format with
    | .json =>
        let items := documents.map fun (file, blocks) => documentJson file blocks
        line (JsonValue.object [("documents", .array items)]).text
    | .text =>
        if documents.isEmpty then line "No generatable documents found."
        else
          let count := (documents.flatMap fun (_, blocks) => blocks).length
          lines <|
            [styled color bold "Documents:"] ++
            (documents.flatMap fun (file, blocks) => ("  " ++ file) :: blocks.map (blockLine color)) ++
            ["", counted documents.length "document(s), " ++ counted count "block(s)"]
  .ok ⟨0, output, "", s.files⟩

def parameterLine (p : Parameter) : String :=
  "  " ++ String.ofList (Markdown.pad p.name.toList 14) ++ " " ++ p.description ++
    match p.default with
    | some default => " (default: " ++ default ++ ")"
    | none => ""

def infoText (color : Bool) (info : PluginInfo) : String :=
  lines (styled color bold info.command :: ("  " ++ info.description) ::
    info.parameters.map parameterLine)

def generators (s : Surroundings) (color : Bool) : Outcome :=
  ⟨0, "\n".intercalate (Builtin.registry.infos.map (infoText color)), "", s.files⟩

def helpText : String :=
  lines ["Regenerate the MD+ blocks embedded in your documentation.", "",
    "Usage: mdplus [OPTIONS] [COMMAND]", "",
    "Commands:",
    "  parse       Regenerate every document",
    "  check       Verify every document is up to date",
    "  list        Show the blocks found in each document",
    "  generators  Show the available generators"]

def usageOutcome (s : Surroundings) : UsageError → Outcome
  | .help => ⟨0, helpText, "", s.files⟩
  | .version => ⟨0, line "mdplus_cli 0.1.0", "", s.files⟩
  | _ => ⟨2, "", lines ["error: invalid usage", "", "For more information, try '--help'."], s.files⟩

def run (s : Surroundings) (arguments : List String) : Outcome :=
  match Usage.parse arguments with
  | .error e => usageOutcome s e
  | .ok c =>
      let color := s.allowsColor && !c.noColor
      let outcome :=
        match c.command with
        | some (.parse paths dryRun) => parse s color c.root paths dryRun
        | some (.check paths diff format) => check s color c.root paths diff format
        | some (.list format) => list s color c.root format
        | some .generators => .ok (generators s color)
        | none =>
            .ok ⟨1, "", line ("No subcommand specified. Run " ++ Error.marked "mdplus --help" ++
              " for usage."), s.files⟩
      match outcome with
      | .ok outcome => outcome
      | .error f => failed color "" f s.files

end Command

end DocBlocks
