import DocBlocks.Error
import DocBlocks.Sorted
import DocBlocks.Text.Offset

/-!
A tree of files. A node is a file, a symbolic link or a directory with named entries in order; a place
is the list of names from the top of the tree down to a node.
-/
namespace DocBlocks

inductive Content where
  | text (text : String)
  | binary (bytes : List UInt8)
  deriving DecidableEq, Repr

namespace Content

def ofBytes (bytes : List UInt8) : Content :=
  match String.fromUTF8? ⟨bytes.toArray⟩ with
  | some valid => .text valid
  | none => .binary bytes

def bytes : Content → List UInt8
  | .text valid => valid.toUTF8.toList
  | .binary raw => raw

def size : Content → Nat
  | .text valid => Text.size valid.toList
  | .binary raw => raw.length

end Content

abbrev Place := List String

inductive Node where
  | file (content : Content) (mode : Nat)
  | link (target : String)
  | directory (entries : List (String × Node))

namespace Node

def isDirectory : Node → Bool
  | directory _ => true
  | _ => false

def entries : Node → List (String × Node)
  | directory entries => entries
  | _ => []

def named? (name : String) : List (String × Node) → Option Node
  | [] => none
  | (other, node) :: rest => if other = name then some node else named? name rest

def at? : Node → Place → Option Node
  | node, [] => some node
  | node, name :: rest => (named? name node.entries).bind (at? · rest)

def setEntry (name : String) (node : Node) (entries : List (String × Node)) :
    List (String × Node) :=
  Sorted.put (Sorted.byKey compare) (name, node) entries

def put : Node → Place → Node → Node
  | _, [], node => node
  | parent, name :: rest, node =>
      let below := (named? name parent.entries).getD (directory [])
      directory (setEntry name (put below rest node) parent.entries)

def erase : Node → Place → Node
  | node, [] => node
  | parent, [name] => directory (parent.entries.filter (·.1 != name))
  | parent, name :: rest =>
      match named? name parent.entries with
      | some below => directory (setEntry name (erase below rest) parent.entries)
      | none => parent

mutual

def directoriesFrom (here : Place) : Node → List Place
  | file _ _ => []
  | link _ => []
  | directory entries => here :: entryDirectoriesFrom here entries

def entryDirectoriesFrom (here : Place) : List (String × Node) → List Place
  | [] => []
  | (name, node) :: rest =>
      directoriesFrom (here ++ [name]) node ++ entryDirectoriesFrom here rest

end

mutual

def leavesFrom (here : Place) : Node → List (Place × Node)
  | file content mode => [(here, .file content mode)]
  | link target => [(here, .link target)]
  | directory entries => entryLeavesFrom here entries

def entryLeavesFrom (here : Place) : List (String × Node) → List (Place × Node)
  | [] => []
  | (name, node) :: rest => leavesFrom (here ++ [name]) node ++ entryLeavesFrom here rest

end

end Node

def newFileMode : Nat := 0o644

def directoryMode : Nat := 0o755

structure Files where
  top : List (String × Node)

namespace Files

def empty : Files := ⟨[]⟩

def root (files : Files) : Node := .directory files.top

def at? (files : Files) (place : Place) : Option Node := files.root.at? place

def directories (files : Files) : List Place := files.root.directoriesFrom []

def put (files : Files) (place : Place) (node : Node) : Files :=
  ⟨(files.root.put place node).entries⟩

def erase (files : Files) (place : Place) : Files := ⟨(files.root.erase place).entries⟩

def leaves (files : Files) : List (Place × Node) := files.root.leavesFrom []

end Files

end DocBlocks
