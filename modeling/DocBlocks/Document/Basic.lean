import DocBlocks.Comment
import DocBlocks.Path

/-!
Documents: files known by their paths. The path alone tells the comment grammar and whether the file
describes its directory.
-/
namespace DocBlocks

structure Document where
  path : Path
  deriving DecidableEq, Repr, Inhabited

def readmeNames : List String := ["readme.md", "readme"]

namespace Document

def grammar (d : Document) : CommentGrammar :=
  CommentGrammar.forExtension (d.path.extension?.getD "")

def isReadme (d : Document) : Bool :=
  match d.path.fileName? with
  | some name => readmeNames.contains (name.map Char.toLower)
  | none => false

def isGeneratable (d : Document) : Bool := d.grammar.style == .markdown

def fileName (d : Document) : String := d.path.fileName?.getD ""

def directory (d : Document) : Path := d.path.parent?.getD ⟨""⟩

end Document

end DocBlocks
