import DocBlocks.Files.Lookup
import DocBlocks.Sorted
import DocBlocks.Workspace.Basic

/-!
Walking down a directory tree. Hidden entries, those that a given test ignores and directories with the
marker are left out. A directory that was entered before through another path is not entered again, and
one that leads back to a directory around it is an error.
-/
namespace DocBlocks

structure WalkRules where
  ignores : Path → Bool → Bool
  marker : String

structure Found where
  entered : List Place
  directories : List Directory
  documents : List Document

namespace Found

def empty : Found := ⟨[], [], []⟩

def enter (f : Found) (place : Place) : Found := { f with entered := place :: f.entered }

def addDirectory (f : Found) (d : Directory) : Found :=
  { f with directories := Sorted.put (fun a b => a.path.order b.path) d f.directories }

def addDocument (f : Found) (d : Document) : Found :=
  { f with documents := Sorted.put (fun a b => a.path.order b.path) d f.documents }

end Found

inductive EntryKind where
  | skipped
  | document
  | directory
  deriving DecidableEq, Repr

namespace WalkRules

def kind (rules : WalkRules) (files : Files) (directory : Path) (name : String) : EntryKind :=
  let path := directory.child name
  let isDirectory := files.isDirectory path
  if name.toList.head? = some '.' then .skipped
  else if rules.ignores path isDirectory then .skipped
  else if !isDirectory then .document
  else if files.contains (path.child rules.marker) then .skipped
  else .directory

end WalkRules

namespace Directory

def unread (path : Path) : Directory := ⟨path, [], [], none⟩

def addDirectory (d : Directory) (path : Path) : Directory :=
  { d with directories := d.directories ++ [path] }

def addDocument (d : Directory) (document : Document) : Directory :=
  { d with
    documents := d.documents ++ [document.path]
    -- the first document that can describes the directory
    readme := d.readme.orElse fun _ => if document.isReadme then some document.path else none }

end Directory

namespace Walk

def visit (rules : WalkRules) (files : Files) (enter : Path → Found → Except Error Found)
    (state : Directory × Found) (name : String) : Except Error (Directory × Found) :=
  let (directory, found) := state
  let path := directory.path.child name
  match rules.kind files directory.path name with
  | .skipped => .ok state
  | .document => .ok (directory.addDocument ⟨path⟩, found.addDocument ⟨path⟩)
  | .directory => do .ok (directory.addDirectory path, ← enter path found)

/-- Enters a directory that stands below others, whose places are given, and takes in its entries. The
depth is greater than the number of directories that can still be entered below one another. -/
def enter (rules : WalkRules) (files : Files) :
    Nat → List Place → Path → Found → Except Error Found
  | 0, _, path, _ => .error (.symlinkCycle path.text)
  | depth + 1, around, path, found => do
      let place ← files.resolve path
      if place ∈ around then .error (.symlinkCycle path.text)
      else if place ∈ found.entered then .ok found
      else
        let (directory, found) ← (← files.names path).foldlM
          (visit rules files (enter rules files depth (place :: around)))
          (Directory.unread path, found.enter place)
        .ok (found.addDirectory directory)

def fromRoot (rules : WalkRules) (files : Files) (root : Path) : Except Error Found :=
  enter rules files (files.directories.length + 1) [] root .empty

end Walk

end DocBlocks
