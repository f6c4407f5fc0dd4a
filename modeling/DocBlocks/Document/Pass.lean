import DocBlocks.Document.Fragment
import DocBlocks.Files.Update

/-!
Regenerating a document. Every bound block is replaced by what its generator renders; when that fails
the block stays as it is, and nothing else is touched.
-/
namespace DocBlocks

structure DocumentPass where
  path : Path
  original : String
  text : String
  blocks : List BlockReport
  deriving DecidableEq, Repr

namespace DocumentPass

def isChanged (p : DocumentPass) : Bool := p.original != p.text

def writeTo (p : DocumentPass) (files : Files) (path : Path) : Except FileError Files :=
  files.replaceText path p.text

def write (p : DocumentPass) (files : Files) : Except FileError (Bool × Files) :=
  if p.isChanged then (true, ·) <$> p.writeTo files p.path else .ok (false, files)

end DocumentPass

structure Rendered where
  text : List Char
  ended : Option (Except Error Unit)

/-- Enters into the reports how the generators ended. Each generator belongs to the next block that is
reported as generated; it stays so unless the generator failed. -/
def BlockReport.settle : List BlockReport → List (Except Error Unit) → List BlockReport
  | report :: reports, ended :: later =>
      if report.status = .generated then
        match ended with
        | .ok () => report :: settle reports later
        | .error e => { report with status := .failed e.message } :: settle reports later
      else report :: settle reports (ended :: later)
  | reports, _ => reports

namespace Document

def renderBody (d : Document) (files : Files) (w : Workspace) (target : BoundBlock) :
    Work (Except Error String) :=
  Work.answer files (target.generator ⟨files, w, d, target.block⟩).run

def render (d : Document) (files : Files) (w : Workspace) (text : List Char) :
    Fragment → Work Rendered
  | .bound target => do
      match ← d.renderBody files w target with
      | .ok body => return ⟨(target.entry body).toList, some (.ok ())⟩
      | .error e =>
          Work.notify
            [.error ("generator failed, keeping the original block: " ++ e.message)]
          return ⟨(Fragment.bound target).original text, some (.error e)⟩
  | fragment => return ⟨fragment.original text, none⟩

def processText (d : Document) (files : Files) (w : Workspace) (text : String) :
    Work DocumentPass := do
  let fragments ← d.fragments text.toList
  let rendered ← fragments.mapM (d.render files w text.toList)
  return {
    path := d.path
    original := text
    text := String.ofList (rendered.flatMap (·.text))
    blocks := BlockReport.settle (fragments.filterMap (·.report?)) (rendered.filterMap (·.ended)) }

end Document

end DocBlocks
