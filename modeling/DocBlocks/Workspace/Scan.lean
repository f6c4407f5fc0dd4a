import DocBlocks.Ignore.Rules
import DocBlocks.Notice
import DocBlocks.Workspace.Config
import DocBlocks.Workspace.Walk

/-!
Scanning a directory tree into a workspace.
-/
namespace DocBlocks.Workspace

def rootAt (files : Files) (current root : Path) : Except Error Path :=
  let root := Path.absolute current root
  if files.isDirectory root then .ok root else .error (.rootNotFound root.text)

def gitignore (files : Files) (root : Path) : IgnoreRules × List Notice :=
  let path := root.child ".gitignore"
  let malformed := Notice.warning "ignoring malformed .gitignore"
  if files.contains path then
    match files.content path with
    | .error _ => (.none root, [malformed])
    | .ok content =>
        let (rules, isSound) := IgnoreRules.ofContent root content
        (rules, if isSound then [] else [malformed])
  else (.none root, [])

def scanIgnoring (files : Files) (root : Path) (options : ScanOptions)
    (ignores : Path → Bool → Bool) : Except Error Workspace := do
  let found ← Walk.fromRoot ⟨ignores, options.ignoreMarker⟩ files root
  .ok ⟨root, options, found.directories, found.documents⟩

def scanWith (files : Files) (current root : Path) (options : ScanOptions) :
    Except Error Workspace × List Notice :=
  match rootAt files current root with
  | .error e => (.error e, [])
  | .ok root =>
      let (ignored, notices) :=
        if options.disableGitignore then (IgnoreRules.none root, []) else gitignore files root
      match IgnoreRules.ofPatterns root options.excludePatterns with
      | .error pattern => (.error (.config (.badPattern pattern)), notices)
      | .ok excluded =>
          (scanIgnoring files root options fun path isDirectory =>
            ignored.ignores path isDirectory || excluded.ignores path isDirectory, notices)

def scan (files : Files) (current root : Path) : Except Error Workspace × List Notice :=
  match rootAt files current root with
  | .error e => (.error e, [])
  | .ok root =>
      match Config.load files root with
      | .error e => (.error e, [])
      | .ok options? => scanWith files current root (options?.getD {})

end DocBlocks.Workspace
