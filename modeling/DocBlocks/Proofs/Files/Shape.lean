import DocBlocks.Files.Lookup

/-! The shape of a tree of files is all of it but what its files hold. Where a path leads, and what is
there, depends on the shape alone. -/
namespace DocBlocks.Node

mutual

def shape : Node → Node
  | file _ mode => file (.text "") mode
  | link target => link target
  | directory entries => directory (shapes entries)

def shapes : List (String × Node) → List (String × Node)
  | [] => []
  | (name,node) :: rest => (name,node.shape) :: shapes rest

end

def content? : Node → Option Content
  | file content _ => some content
  | _ => none

mutual

theorem directoriesShape (here : Place) (n : Node) :
    n.shape.directoriesFrom here = n.directoriesFrom here := by
  cases n with
  | file content mode => rfl
  | link target => rfl
  | directory entries => exact congrArg (here :: ·) (entryDirectoriesShape here entries)

theorem entryDirectoriesShape (here : Place) (entries : List (String × Node)) :
    entryDirectoriesFrom here (shapes entries) = entryDirectoriesFrom here entries := by
  cases entries with
  | nil => rfl
  | cons entry rest =>
      obtain ⟨name,node⟩ := entry
      simp only [shapes, entryDirectoriesFrom]
      rw [directoriesShape (here ++ [name]) node, entryDirectoriesShape here rest]

end

end DocBlocks.Node

namespace DocBlocks.Files
open Node

def shape (files : Files) : Files := ⟨shapes files.top⟩

variable {files files' : Files}

theorem directoriesShape (files : Files) : files.shape.directories = files.directories :=
  Node.directoriesShape [] files.root

def held? (files : Files) (place : Place) : Option Content := (files.at? place).bind content?

end DocBlocks.Files
