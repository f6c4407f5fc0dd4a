import DocBlocks.Document.Basic

/-!
Workspaces: the directories and documents found below a root.
-/
namespace DocBlocks

structure ScanOptions where
  excludePatterns : List String := []
  ignoreMarker : String := "MDP_IGNORE"
  maxFileSize : Nat := 10485760
  disableGitignore : Bool := false
  deriving DecidableEq, Repr

structure Directory where
  path : Path
  documents : List Path
  directories : List Path
  readme : Option Path
  deriving DecidableEq, Repr

def Directory.name (d : Directory) : String := d.path.fileName?.getD ""

structure Workspace where
  root : Path
  options : ScanOptions
  directories : List Directory
  documents : List Document
  deriving DecidableEq, Repr

namespace Workspace

def directory? (w : Workspace) (path : Path) : Option Directory :=
  let path := path.normalize
  w.directories.find? (·.path == path)

def document? (w : Workspace) (path : Path) : Option Document :=
  let path := path.normalize
  w.documents.find? (·.path == path)

def generatable (w : Workspace) : List Document := w.documents.filter Document.isGeneratable

def readme? (w : Workspace) (directory : Path) : Option Document := do
  let readme ← (← w.directory? directory).readme
  w.documents.find? (·.path == readme)

end Workspace

end DocBlocks
