import DocBlocks.Proofs.Files.Shape
import DocBlocks.Workspace.Scan

/-! Scanning reads the shape of a tree of files, and of what the files hold only the configuration and
the ignore file at the root. -/
namespace DocBlocks

namespace Walk

variable (rules : WalkRules) (files : Files)

end Walk

namespace Workspace

variable {files files' : Files} {current root : Path}

def settings (current root : Path) : List Path :=
  (Path.absolute current (Path.absolute current root)).child ".gitignore" ::
    Config.candidates.map (Path.absolute current root).child

end Workspace

end DocBlocks
