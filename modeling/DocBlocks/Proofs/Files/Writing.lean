import DocBlocks.Proofs.Files.Order
import DocBlocks.Proofs.Files.Shape
import DocBlocks.Workspace.Process

/-! Writing documents back changes what their files hold, and nothing else: the tree of files keeps its
shape, so every path leads where it led before. -/
namespace DocBlocks.Node

section
variable {name : String} {node old : Node} {entries : List (String × Node)}

end

variable {n old new : Node} {place place' : Place}

end DocBlocks.Node

namespace DocBlocks.Files
open Node

variable {files files' : Files} {place place' : Place} {path : Path}

theorem heldFile {content : Content} :
    files.held? place = some content ↔ ∃ mode, files.at? place = some (.file content mode) := by
  unfold held?
  constructor
  · intro found
    obtain ⟨node,here,found⟩ := Option.bind_eq_some_iff.mp found
    cases node with
    | file content mode =>
        cases found
        exact ⟨mode,here⟩
    | link target => cases found
    | directory entries => cases found
  · rintro ⟨mode,here⟩
    rw [here]
    rfl

theorem contentFile {content : Content} :
    files.content path = .ok content ↔
      ∃ place, files.resolve path = .ok place ∧ files.held? place = some content := by
  unfold Files.content
  rw [okBind]
  refine exists_congr fun place => and_congr_right fun _ => ?_
  rw [held?]
  cases files.at? place with
  | none => simp
  | some node => cases node <;> simp [content?]

theorem readText {text : String} :
    files.read path = .ok text ↔ files.content path = .ok (.text text) := by
  unfold Files.read
  rw [okBind]
  constructor
  · rintro ⟨content,found,ok⟩
    cases content with
    | text inside =>
        cases ok
        exact found
    | binary bytes => cases ok
  · intro found
    exact ⟨_,found,rfl⟩

theorem sizeFile {content : Content} (found : files.content path = .ok content) :
    files.size path = .ok content.size := by
  obtain ⟨place,leads,held⟩ := contentFile.mp found
  obtain ⟨mode,here⟩ := heldFile.mp held
  unfold Files.size
  rw [leads]
  simp only [bind, Except.bind]
  rw [here]

/-- What writing passes makes of a tree of files. A file to which some of them lead holds what those
say, if they say the same. -/
structure Written (passes : List DocumentPass) (files files' : Files) : Prop where
  shape : files'.shape = files.shape
  kept : ∀ place, (∀ pass ∈ passes, files.resolve pass.path ≠ .ok place) →
    files'.held? place = files.held? place
  held : ∀ place text, (∃ pass ∈ passes, files.resolve pass.path = .ok place) →
    (∀ pass ∈ passes, files.resolve pass.path = .ok place → pass.text = text) →
      files'.held? place = some (.text text)

end DocBlocks.Files
