import DocBlocks.Command.Run

/-!
The program: it reads the trees that a command line speaks of, runs the command on them, prints what there is
to print and writes the files that have changed.
-/
namespace DocBlocks.Program

/-- What stands at an entry of a directory, if it can be read. A link is read as one to the place where it
leads in the end. -/
partial def readEntry (entry : IO.FS.DirEntry) : IO (Option Node) := do
  try
    match (← entry.path.symlinkMetadata).type with
    | .symlink => return some (.link (← IO.FS.realPath entry.path).toString)
    | .file =>
        let bytes ← IO.FS.readBinFile entry.path
        return some (.file (.ofBytes bytes.data.toList) newFileMode)
    | .dir =>
        let below ← (← entry.path.readDir).toList.filterMapM fun inner => do
          return (← readEntry inner).map (inner.fileName, ·)
        return some (.directory (Sorted.ofList (Sorted.byKey compare) below))
    | .other => return none
  catch _ => return none

def paths (current : Path) (arguments : List String) : List Path :=
  match Usage.parse arguments with
  | .error _ => []
  | .ok c =>
      let operands :=
        match c.command with
        | some (.parse paths _) | some (.check paths _ _) => paths
        | _ => []
      let roots :=
        match c.root, operands with
        | some root, _ => [Path.mk root]
        | none, [_] => []
        | none, _ => [current]
      (roots ++ operands.map Path.mk).map (Path.absolute current)

def readTree (files : Files) (path : Path) : IO Files := do
  match ← readEntry ⟨⟨"/"⟩, path.text⟩ with
  | some node => return files.put ((Path.segments path.text).filter (· ≠ "")) node
  | none => return files

def readTrees (current : Path) (arguments : List String) : IO Files := do
  let spoken := paths current arguments
  let files ← spoken.foldlM readTree .empty
  let isNamed := spoken.any files.isDirectory
  if spoken.isEmpty || isNamed then return files else readTree files current

def changed (before after : Files) : List (String × Content) :=
  after.leaves.filterMap fun (place, node) =>
    match node, before.at? place with
    | .file content _, some (.file old _) =>
        if content = old then none else some ("/" ++ "/".intercalate place, content)
    | .file content _, _ => some ("/" ++ "/".intercalate place, content)
    | _, _ => none

def run (arguments : List String) : IO UInt32 := do
  let current : Path := ⟨(← IO.currentDir).toString⟩
  let files ← readTrees current arguments
  let allowsColor := (← IO.getEnv "NO_COLOR").isNone
  let outcome := Command.run ⟨files, current, allowsColor⟩ arguments
  for (path, content) in changed files outcome.files do
    IO.FS.writeBinFile ⟨path⟩ ⟨content.bytes.toArray⟩
  IO.print outcome.output
  IO.eprint outcome.errors
  return outcome.exitCode.toUInt32

end DocBlocks.Program

def main (arguments : List String) : IO UInt32 := DocBlocks.Program.run arguments
