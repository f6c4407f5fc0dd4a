import DocBlocks.Files.Lookup

/-!
Changing a tree of files.
-/
namespace DocBlocks.Files

def entryPlace (files : Files) (path : Path) : Except FileError Place := do
  match path.fileName?, path.parent? with
  | some name, some parent =>
      match files.at? (← files.resolve parent) with
      | some (.directory _) => .ok ((← files.resolve parent) ++ [name])
      | _ => .error .notADirectory
  | _, _ => .error .notFound

/-- Replaces the text of the file that a path leads to, which keeps its mode. A path that leads nowhere
gets a new file in its directory, instead of a broken link that stands there; a path that cannot be
followed for another reason is an error. -/
def replaceText (files : Files) (path : Path) (text : String) : Except FileError Files :=
  match files.resolve path with
  | .ok place =>
      match files.at? place with
      | some (.file _ mode) => .ok (files.put place (.file (.text text) mode))
      | _ => .error .isADirectory
  | .error cause =>
      match files.entryPlace path with
      | .error fault => .error fault
      | .ok place =>
          if cause ≠ .notFound then .error cause
          else if path.text.toList.getLast? = some '/' then .error .notADirectory
          else .ok (files.put place (.file (.text text) newFileMode))

def makeDirectories (files : Files) (here : Place) :
    List String → Except FileError (Files × Place)
  | [] => .ok (files, here)
  | segment :: rest =>
      match files.follow linkLimit here [segment] with
      | .ok next => makeDirectories files next rest
      | .error .notFound =>
          let next := here ++ [segment]
          makeDirectories (files.put next (.directory [])) next rest
      | .error cause => .error cause

def makeDirectory (files : Files) (path : Path) : Except FileError Files := do
  let (files, _) ← files.makeDirectories [] (Path.segments path.text)
  .ok files

def makeParent (files : Files) (path : Path) : Except FileError Files :=
  files.makeDirectory (path.parent?.getD ⟨"/"⟩)

def link (files : Files) (path : Path) (target : String) : Except FileError Files := do
  let files ← files.makeParent path
  .ok (files.put (← files.entryPlace path) (.link target))

def store (files : Files) (path : Path) (content : Content) (mode : Option Nat) :
    Except FileError Files := do
  let files ← files.makeParent path
  let kept := mode.orElse fun _ => files.mode? path
  let place ←
    match files.resolve path with
    | .ok place => .ok place
    | .error _ => files.entryPlace path
  .ok (files.put place (.file content (kept.getD newFileMode)))

def remove (files : Files) (path : Path) : Except FileError Files := do
  let place ← files.entryPlace path
  if (files.at? place).isSome then .ok (files.erase place) else .error .notFound

end DocBlocks.Files
