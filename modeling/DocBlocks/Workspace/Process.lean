import DocBlocks.Document.Pass

/-!
Regenerating the documents of a workspace. A document that cannot be read is reported, and the others
are not touched by that.
-/
namespace DocBlocks

structure DocumentError where
  path : Path
  message : String
  deriving DecidableEq, Repr

structure ProcessResult where
  passes : List DocumentPass
  errors : List DocumentError
  deriving DecidableEq, Repr

namespace ProcessResult

def empty : ProcessResult := ⟨[], []⟩

def changed (r : ProcessResult) : List DocumentPass := r.passes.filter DocumentPass.isChanged

def isOk (r : ProcessResult) : Bool := r.errors.isEmpty && r.changed.isEmpty

/-- Writes passes one after another up to the first that fails; the files written before stay
written. -/
def writeAll (files : Files) : List DocumentPass → Except FileError Unit × Files
  | [] => (.ok (), files)
  | pass :: rest =>
      match pass.write files with
      | .ok (_, files) => writeAll files rest
      | .error e => (.error e, files)

def writeUpdates (r : ProcessResult) (files : Files) : Except FileError Nat × Files :=
  let (result, files) := writeAll files r.changed
  (result.map fun _ => r.changed.length, files)

end ProcessResult

namespace Workspace

def readDocument (w : Workspace) (files : Files) (d : Document) : Except Error String := do
  let size ← files.size d.path
  if size > w.options.maxFileSize then
    .error (.fileTooLarge d.path.text size w.options.maxFileSize)
  else
    let text ← files.read d.path
    .ok text

def processDocument (w : Workspace) (files : Files) (d : Document) :
    Work (Except DocumentError DocumentPass) := do
  match w.readDocument files d with
  | .ok text => .ok <$> d.processText files w text
  | .error e =>
      Work.notify [.error ("skipping document: " ++ e.message)]
      return .error ⟨d.path, e.message⟩

def addOutcome (r : ProcessResult) : Except DocumentError DocumentPass → ProcessResult
  | .ok pass => { r with passes := r.passes ++ [pass] }
  | .error e => { r with errors := r.errors ++ [e] }

def processDocuments (w : Workspace) (files : Files) (documents : List Document) :
    Work ProcessResult := do
  let outcomes ← documents.mapM (w.processDocument files)
  return outcomes.foldl addOutcome .empty

def process (w : Workspace) (files : Files) : Work ProcessResult :=
  w.processDocuments files w.generatable

def select (w : Workspace) (path : Path) : Except DocumentError Document :=
  match w.document? path with
  | some d => if d.isGeneratable then .ok d else .error ⟨path, "not a generatable document"⟩
  | none => .error ⟨path, "not part of the workspace"⟩

def processPaths (w : Workspace) (files : Files) (current : Path) (paths : List Path) :
    Work ProcessResult := do
  let selected := paths.map fun path => w.select (Path.absolute current path)
  let unknown := selected.filterMap fun
    | .error e => some e
    | .ok _ => none
  let known := selected.filterMap Except.toOption
  let processed ← w.processDocuments files known
  return ⟨processed.passes, unknown ++ processed.errors⟩

end Workspace

end DocBlocks
