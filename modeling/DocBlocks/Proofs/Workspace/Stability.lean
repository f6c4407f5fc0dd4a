import DocBlocks.Proofs.Builtin.Rendering
import DocBlocks.Proofs.Document.Passes
import DocBlocks.Proofs.Files.Writing
import DocBlocks.Proofs.Workspace.Processing
import DocBlocks.Proofs.Workspace.Rescan

/-! Once its passes are written, a workspace is scanned to the same workspace, and its documents are in
order: each of them has the text that processing it again would give it. -/
namespace DocBlocks

namespace Document
open CommentGrammar

variable {d : Document} {files files' : Files} {w : Workspace} {s t : Session}

end Document

namespace Workspace

def sources (current root : Path) (w : Workspace) : List Path :=
  settings current root ++
    (w.root :: w.generatable.map Document.directory).map fun directory =>
      directory.child GettingStarted.configName

variable {current root : Path} {files files' : Files} {s t : Session} {w : Workspace}

def page : String := String.ofList (Tag.entryText Contents.command.toList [' '] [])

def pageDocument : Document := ⟨⟨"/a.md"⟩⟩

section
open CommentGrammar (markdown)

variable {body : String}

theorem elsewhere {sources : List Path} (leads : files.resolve pageDocument.path = .ok ["a.md"])
    (all : (sources.all fun source => (files.resolve source).toOption != some ["a.md"]) = true) :
    ∀ source ∈ sources, files.resolve source ≠ files.resolve pageDocument.path := by
  intro source member same
  have other := List.all_eq_true.mp all source member
  rw [same, leads] at other
  exact absurd other (by decide)

end

end Workspace

end DocBlocks
