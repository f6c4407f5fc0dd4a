import DocBlocks.Proofs.Document.Steady
import DocBlocks.Proofs.Files.Writing
import DocBlocks.Workspace.Process

/-! What processing a workspace gives: for each document that can be regenerated the pass over its text,
or an error, each as it would be at the start. -/
namespace DocBlocks

namespace Document
open Work

variable {d : Document} {files : Files} {w : Workspace} {s : Session} {text : String}

theorem passPath (d : Document) (files : Files) (w : Workspace) (text : String) (s : Session) :
    ((d.processText files w text).run s).1.path = d.path := rfl

end Document

namespace ProcessResult

theorem outcomesPasses (outcomes : List (Except DocumentError DocumentPass)) (r : ProcessResult) :
    (outcomes.foldl Workspace.addOutcome r).passes =
      r.passes ++ outcomes.filterMap Except.toOption := by
  induction outcomes generalizing r with
  | nil => simp
  | cons outcome rest ih =>
      rw [List.foldl_cons, ih]
      cases outcome with
      | ok pass => exact List.append_assoc _ _ _
      | error e => rfl

end ProcessResult

namespace Workspace
open Work

variable {w : Workspace} {files : Files} {s : Session} {d : Document} {pass : DocumentPass}

theorem documentRead {text : String} : w.readDocument files d = .ok text ↔
    files.content d.path = .ok (.text text) ∧ Text.size text.toList ≤ w.options.maxFileSize := by
  unfold readDocument
  constructor
  · intro read
    obtain ⟨size,sized,read⟩ := okBind.mp read
    split at read
    · cases read
    · rename_i small
      obtain ⟨_,read,same⟩ := okBind.mp read
      cases same
      cases found : files.read d.path with
      | error e =>
          rw [found] at read
          cases read
      | ok inside =>
          rw [found] at read
          cases read
          have content := Files.readText.mp found
          rw [Files.sizeFile content] at sized
          cases sized
          exact ⟨content,Nat.le_of_not_gt small⟩
  · rintro ⟨content,small⟩
    rw [Files.sizeFile content, Files.readText.mpr content]
    exact if_neg (Nat.not_lt_of_ge small)

theorem steadyProcessDocument (w : Workspace) (files : Files) (d : Document) :
    Steady files (w.processDocument files d) := by
  unfold processDocument
  split
  · exact steadyBind (Document.steadyProcessText d files w _) fun _ => steadyPure _
  · exact steadyBind (steadyNotify _) fun _ => steadyPure _

theorem documentPassed : ((w.processDocument files d).run s).1 = .ok pass ↔
    ∃ text, w.readDocument files d = .ok text ∧ ((d.processText files w text).run s).1 = pass := by
  unfold processDocument
  cases read : w.readDocument files d with
  | ok text =>
      have run : (((.ok <$> d.processText files w text : Work (Except DocumentError DocumentPass))).run
          s).1 = .ok ((d.processText files w text).run s).1 := rfl
      dsimp only
      rw [run]
      simp
  | error e =>
      dsimp only
      rw [notifyRun, pureRun]
      simp

theorem documentsResult (w : Workspace) (files : Files) (s : Session) (documents : List Document) :
    ((w.processDocuments files documents).run s).1 = (documents.map fun d =>
      ((w.processDocument files d).run s).1).foldl addOutcome .empty := by
  rw [← mapMResult (steadyProcessDocument w files)]
  rfl

theorem processOutcomes (w : Workspace) (files : Files) (s : Session) :
    ((w.process files).run s).1 = (w.generatable.map fun d =>
      ((w.processDocument files d).run s).1).foldl addOutcome .empty :=
  documentsResult w files s w.generatable

theorem passMember : pass ∈ ((w.process files).run s).1.passes ↔
    ∃ d ∈ w.generatable, ∃ text, w.readDocument files d = .ok text ∧
      ((d.processText files w text).run s).1 = pass := by
  rw [processOutcomes, ProcessResult.outcomesPasses]
  simp only [ProcessResult.empty, List.nil_append, List.mem_filterMap, List.mem_map]
  constructor
  · rintro ⟨outcome,⟨d,member,rfl⟩,ok⟩
    refine ⟨d,member,documentPassed.mp ?_⟩
    cases outcome : ((w.processDocument files d).run s).1 with
    | ok found =>
        rw [outcome] at ok
        exact congrArg Except.ok (Option.some.inj ok)
    | error e =>
        rw [outcome] at ok
        cases ok
  · rintro ⟨d,member,passed⟩
    exact ⟨_,⟨d,member,rfl⟩,by rw [documentPassed.mpr passed]; rfl⟩

end Workspace

end DocBlocks
