import DocBlocks.Files.Basic
import DocBlocks.Path
import DocBlocks.Text.Blank

/-!
Finding what an absolute path leads to. Links are followed, up to a limit; the place that is found is
never that of a link, so it is the canonical form of the path.
-/
namespace DocBlocks

def Path.segments (text : String) : List String :=
  (Text.pieces (· == '/') text.toList).map String.ofList

namespace Files

def linkLimit : Nat := 40

def linkStart (here : Place) (target : String) : Place :=
  if (Path.mk target).isAbsolute then [] else here

def descend (files : Files)
    (atLink : Place → String → List String → Except FileError Place) :
    Place → List String → Except FileError Place
  | here, [] => .ok here
  | here, segment :: rest =>
      match files.at? here with
      | some (.directory entries) =>
          if segment = "" ∨ segment = "." then descend files atLink here rest
          else if segment = ".." then descend files atLink here.dropLast rest
          else
            match Node.named? segment entries with
            | none => .error .notFound
            | some (.link target) => atLink here target rest
            | some _ => descend files atLink (here ++ [segment]) rest
      | _ => .error .notADirectory

def follow (files : Files) : Nat → Place → List String → Except FileError Place
  | 0 => descend files fun _ _ _ => .error .tooManyLinks
  | links + 1 => descend files fun here target rest =>
      follow files links (linkStart here target) (Path.segments target ++ rest)

def resolve (files : Files) (path : Path) : Except FileError Place :=
  if path.text.isEmpty then .error .notFound
  else follow files linkLimit [] (Path.segments path.text)

def node? (files : Files) (path : Path) : Option Node :=
  match files.resolve path with
  | .ok place => files.at? place
  | .error _ => none

def contains (files : Files) (path : Path) : Bool := (files.node? path).isSome

def isDirectory (files : Files) (path : Path) : Bool :=
  match files.node? path with
  | some (.directory _) => true
  | _ => false

def isFile (files : Files) (path : Path) : Bool :=
  match files.node? path with
  | some (.file _ _) => true
  | _ => false

def content (files : Files) (path : Path) : Except FileError Content := do
  match files.at? (← files.resolve path) with
  | some (.file content _) => .ok content
  | some (.directory _) => .error .isADirectory
  | _ => .error .notFound

def read (files : Files) (path : Path) : Except FileError String := do
  match ← files.content path with
  | .text text => .ok text
  | .binary _ => .error .invalidText

def directorySize : Nat := 4096

def size (files : Files) (path : Path) : Except FileError Nat := do
  match files.at? (← files.resolve path) with
  | some (.file content _) => .ok content.size
  | some (.directory _) => .ok directorySize
  | _ => .error .notFound

def names (files : Files) (path : Path) : Except FileError (List String) := do
  match files.at? (← files.resolve path) with
  | some (.directory entries) => .ok (entries.map (·.1))
  | _ => .error .notADirectory

def mode? (files : Files) (path : Path) : Option Nat :=
  match files.node? path with
  | some (.file _ mode) => some mode
  | some (.directory _) => some directoryMode
  | _ => none

end Files

end DocBlocks
