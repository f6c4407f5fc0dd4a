import DocBlocks.Proofs.Workspace.Processing
import Mathlib

/-! Documents are processed apart from each other. What a session keeps between them, the commands that
were reported and the leading arguments that were read, never shows in a pass: each is the one that its
document gets on its own, and a document that cannot be processed takes nothing from the others. -/
namespace DocBlocks

def Session.Remembers (files : Files) (s : Session) : Prop :=
  ∀ path arguments, s.leading.lookup path = some arguments →
    arguments = (Work.readLeading files ⟨path⟩).1

def Session.anew (s : Session) : Session := .start ⟨s.registry.plugins,[]⟩

theorem Session.rememberedAnswers {files : Files} {s : Session} (remembers : s.Remembers files)
    (d : Document) : s.answers files d = (Work.readLeading files d).1 := by
  rw [answers]
  cases known : s.leading.lookup d.path with
  | none => rfl
  | some arguments => exact remembers d.path arguments known

theorem Session.anewAgrees {files : Files} {s t : Session} (remembers : t.Remembers files)
    (plugins : t.registry.plugins = s.registry.plugins) : Agrees files s.anew t := by
  refine ⟨plugins,funext fun d => ?_⟩
  have unread : s.anew.answers files d = (Work.readLeading files d).1 := rfl
  rw [unread, rememberedAnswers remembers]

theorem Session.agreesRemember {files : Files} {s t : Session} (agree : Agrees files s t)
    (remembers : s.Remembers files) : t.Remembers files := by
  intro path arguments known
  have later : t.answers files ⟨path⟩ = arguments := by
    rw [answers, known]
    rfl
  rw [← later, agree.answers, rememberedAnswers remembers]

namespace ProcessResult

def ofOutcome : Except DocumentError DocumentPass → ProcessResult
  | .ok pass => ⟨[pass],[]⟩
  | .error e => ⟨[],[e]⟩

variable {α : Type} (outcome : α → Except DocumentError DocumentPass)

theorem outcomesAll (items : List α) (r : ProcessResult) :
    (items.map outcome).foldl Workspace.addOutcome r =
      ⟨r.passes ++ items.flatMap fun item => (ofOutcome (outcome item)).passes,
        r.errors ++ items.flatMap fun item => (ofOutcome (outcome item)).errors⟩ := by
  induction items generalizing r with
  | nil => simp
  | cons item rest ih =>
      rw [List.map_cons, List.foldl_cons, ih]
      cases made : outcome item <;> simp [Workspace.addOutcome, ofOutcome, made]

theorem outcomeCount (o : Except DocumentError DocumentPass) :
    (ofOutcome o).passes.length + (ofOutcome o).errors.length = 1 := by
  cases o <;> rfl

theorem outcomesCount (items : List α) :
    (items.flatMap fun item => (ofOutcome (outcome item)).passes).length +
      (items.flatMap fun item => (ofOutcome (outcome item)).errors).length = items.length := by
  induction items with
  | nil => rfl
  | cons item rest ih =>
      have one := outcomeCount (outcome item)
      simp only [List.flatMap_cons, List.length_append, List.length_cons]
      omega

end ProcessResult

namespace Workspace
open Work

variable {w : Workspace} {files : Files} {s t : Session} {current path : Path} {pass : DocumentPass}

def outcome (w : Workspace) (files : Files) (s : Session) (path : Path) :
    Except DocumentError DocumentPass := do
  let d ← w.select path
  ((w.processDocument files d).run s).1

theorem outcomeSteady (agree : Session.Agrees files s t) (path : Path) :
    w.outcome files t path = w.outcome files s path := by
  unfold outcome
  cases w.select path with
  | error e => rfl
  | ok d => exact (steadyProcessDocument w files d s).2 t agree

theorem steadyProcessPaths (w : Workspace) (files : Files) (current : Path) (paths : List Path) :
    Steady files (w.processPaths files current paths) :=
  steadyBind (steadyBind (steadyMapM (steadyProcessDocument w files) _) fun _ => steadyPure _)
    fun _ => steadyPure _

theorem pathsRemember (w : Workspace) (current : Path) (paths : List Path)
    (remembers : s.Remembers files) :
    ((w.processPaths files current paths).run s).2.Remembers files :=
  Session.agreesRemember (steadyProcessPaths w files current paths s).1 remembers

/- The passes stand as they were requested; the errors of paths without a document stand before those of
documents that could not be read. -/
theorem pathsResult (w : Workspace) (files : Files) (s : Session) (current : Path)
    (paths : List Path) :
    let r := ((w.processPaths files current paths).run s).1
    let one path := ProcessResult.ofOutcome (w.outcome files s (Path.absolute current path))
    r.passes = (paths.flatMap fun path => (one path).passes) ∧
      r.errors.Perm (paths.flatMap fun path => (one path).errors) := by
  intro r one
  let selected := paths.map fun path => w.select (Path.absolute current path)
  let processed := ((w.processDocuments files (selected.filterMap Except.toOption)).run s).1
  have whole : r = ⟨processed.passes,selected.filterMap _ ++ processed.errors⟩ := rfl
  rw [whole]
  simp only [processed, documentsResult, ProcessResult.outcomesAll, ProcessResult.empty,
    List.nil_append, selected]
  clear whole processed selected r
  -- errors of the selection come first, so they are all there but not in order
  induction paths with
  | nil => exact ⟨rfl,List.Perm.refl _⟩
  | cons path rest ih =>
      obtain ⟨passes,errors⟩ := ih
      have first : w.outcome files s (Path.absolute current path) =
        (w.select (Path.absolute current path)).bind fun d =>
          ((w.processDocument files d).run s).1 := rfl
      simp only [one, List.flatMap_cons, List.map_cons, first]
      cases w.select (Path.absolute current path) with
      | error e => exact ⟨passes,errors.cons e⟩
      | ok d =>
          refine ⟨congrArg _ passes,?_⟩
          refine .trans ?_ (errors.append_left _)
          exact (List.perm_append_comm_assoc _ _ _)

theorem pathAlone (w : Workspace) (files : Files) (s : Session) (current path : Path) :
    ((w.processPaths files current [path]).run s).1 =
      .ofOutcome (w.outcome files s (Path.absolute current path)) := by
  obtain ⟨passes,errors⟩ := pathsResult w files s current [path]
  simp only [List.flatMap_cons, List.flatMap_nil, List.append_nil] at passes errors
  cases made : w.outcome files s (Path.absolute current path) with
  | ok pass =>
      rw [made] at passes errors
      exact congr (congrArg ProcessResult.mk passes) (List.perm_nil.mp errors)
  | error e =>
      rw [made] at passes errors
      exact congr (congrArg ProcessResult.mk passes) (List.perm_singleton.mp errors)

/-- Why a path has no pass: there is no document, or its blocks are not regenerated, or it is too large
or cannot be read. -/
inductive Unprocessed (w : Workspace) (files : Files) (path : Path) : Prop where
  | missing (none : w.document? path = none)
  | unchanging (d : Document) (found : w.document? path = some d) (kind : d.isGeneratable = false)
  | large (d : Document) (found : w.document? path = some d) (size : Nat)
      (sized : files.size d.path = .ok size) (more : w.options.maxFileSize < size)
  | unreadable (d : Document) (found : w.document? path = some d) (e : FileError)
      (failed : files.size d.path = .error e ∨ files.read d.path = .error e)

theorem selected {d : Document} : w.select path = .ok d ↔
    w.document? path = some d ∧ d.isGeneratable = true := by
  unfold select
  cases w.document? path with
  | none => simp
  | some found =>
      simp only [Option.some.injEq]
      split
      · rename_i kind
        constructor
        · rintro ⟨⟩
          exact ⟨rfl,kind⟩
        · rintro ⟨rfl,_⟩
          rfl
      · rename_i kind
        constructor
        · rintro ⟨⟩
        · rintro ⟨rfl,other⟩
          exact absurd other kind

theorem outcomePassed : w.outcome files s path = .ok pass ↔
    ∃ d text, w.document? path = some d ∧ d.isGeneratable = true ∧
      w.readDocument files d = .ok text ∧ ((d.processText files w text).run s).1 = pass := by
  unfold outcome
  rw [okBind]
  simp only [selected, documentPassed, and_assoc, exists_and_left]

theorem documentSized {d : Document} {text : String} : w.readDocument files d = .ok text ↔
    ∃ size, files.size d.path = .ok size ∧ size ≤ w.options.maxFileSize ∧
      files.read d.path = .ok text := by
  unfold readDocument
  cases files.size d.path with
  | error e => exact ⟨nofun,nofun⟩
  | ok size =>
      change (if w.options.maxFileSize < size then _ else _) = _ ↔ _
      split
      · rename_i more
        refine ⟨nofun,fun ⟨_,same,small,_⟩ => ?_⟩
        cases same
        exact absurd more (Nat.not_lt_of_ge small)
      · rename_i small
        cases files.read d.path with
        | error e => exact ⟨nofun,nofun⟩
        | ok found =>
            refine ⟨fun same => ⟨size,rfl,Nat.le_of_not_gt small,?_⟩,fun ⟨_,_,_,same⟩ => ?_⟩
            · cases same
              rfl
            · cases same
              rfl

theorem outcomeFailed : (∀ pass, w.outcome files s path ≠ .ok pass) ↔ Unprocessed w files path := by
  simp only [ne_eq, outcomePassed, documentSized]
  constructor
  · intro none
    cases found : w.document? path with
    | none => exact .missing found
    | some d =>
      cases kind : d.isGeneratable with
      | false => exact .unchanging d found kind
      | true =>
        cases sized : files.size d.path with
        | error e => exact .unreadable d found e (.inl sized)
        | ok size =>
          cases read : files.read d.path with
          | error e => exact .unreadable d found e (.inr read)
          | ok text =>
            refine .large d found size sized (Nat.lt_of_not_ge fun small => ?_)
            exact none _ ⟨d,text,found,kind,⟨size,sized,small,read⟩,rfl⟩
  · rintro unprocessed pass ⟨d,text,found,kind,⟨size,sized,small,read⟩,rfl⟩
    cases unprocessed with
    | missing none => exact nomatch found.symm.trans none
    | unchanging other same unchanging =>
        cases found.symm.trans same
        exact nomatch kind.symm.trans unchanging
    | large other same size' sized' more =>
        cases found.symm.trans same
        cases sized.symm.trans sized'
        exact absurd more (Nat.not_lt_of_ge small)
    | unreadable other same e failed =>
        cases found.symm.trans same
        rcases failed with failed | failed
        · exact nomatch sized.symm.trans failed
        · exact nomatch read.symm.trans failed

theorem passesWithout {before after : List Path}
    (unprocessed : Unprocessed w files (Path.absolute current path)) :
    ((w.processPaths files current (before ++ path :: after)).run s).1.passes =
      ((w.processPaths files current (before ++ after)).run s).1.passes := by
  rw [(pathsResult w files s current _).1, (pathsResult w files s current _).1, List.flatMap_append,
    List.flatMap_append, List.flatMap_cons]
  cases made : w.outcome files s (Path.absolute current path) with
  | ok pass => exact absurd made (outcomeFailed.mpr unprocessed pass)
  | error e =>
      dsimp only
      rw [made]
      rfl

theorem passedGeneratable {d : Document} (found : w.document? path = some d)
    (kind : d.isGeneratable = true) : d ∈ w.generatable :=
  List.mem_filter.mpr ⟨List.mem_of_find?_eq_some found,kind⟩

theorem passedOutcome {o : Except DocumentError DocumentPass}
    (member : pass ∈ (ProcessResult.ofOutcome o).passes) : o = .ok pass := by
  cases o with
  | ok other => rw [List.mem_singleton.mp member]
  | error e => cases member

theorem passedAmongAll (agrees : Session.Agrees files s t)
    (passed : w.outcome files s path = .ok pass) :
    pass ∈ ((w.process files).run t).1.passes ∧
      ∀ other ∈ ((w.process files).run t).1.passes, other.path = pass.path → other = pass := by
  obtain ⟨d,text,found,kind,read,rfl⟩ := outcomePassed.mp passed
  have same := (d.steadyProcessText files w text s).2 t agrees
  refine ⟨passMember.mpr ⟨d,passedGeneratable found kind,text,read,same⟩,fun other inside path => ?_⟩
  obtain ⟨d',_,text',read',rfl⟩ := passMember.mp inside
  rw [Document.passPath, Document.passPath] at path
  cases d
  cases d'
  cases path
  cases read.symm.trans read'
  exact same

/- Whatever was reported and read before, a list of paths gives one pass or error for each path, in the
order of the paths; it is what the path gives alone in a new session, and its pass is the one that
processing the whole workspace gives. Paths without a pass do not change the others. -/
theorem pathsApart (w : Workspace) (files : Files) (s t : Session) (current : Path)
    (remembers : s.Remembers files) (remembersAll : t.Remembers files)
    (plugins : t.registry.plugins = s.registry.plugins) :
    let result paths := ((w.processPaths files current paths).run s).1
    let alone path := ((w.processPaths files current [path]).run s.anew).1
    let all := ((w.process files).run t).1
    (∀ paths, (result paths).passes.length + (result paths).errors.length = paths.length ∧
      (result paths).passes = paths.flatMap (fun path => (alone path).passes) ∧
      (result paths).errors.Perm (paths.flatMap fun path => (alone path).errors)) ∧
    (∀ path, (alone path).passes.length + (alone path).errors.length = 1 ∧
      ((alone path).errors ≠ [] ↔ Unprocessed w files (Path.absolute current path)) ∧
      ∀ pass ∈ (alone path).passes,
        (∃ d text, w.document? (Path.absolute current path) = some d ∧
          w.readDocument files d = .ok text ∧
          pass = ((d.processText files w text).run s.anew).1) ∧
        pass ∈ all.passes ∧ ∀ other ∈ all.passes, other.path = pass.path → other = pass) ∧
    ∀ before path after, Unprocessed w files (Path.absolute current path) →
      (result (before ++ path :: after)).passes = (result (before ++ after)).passes := by
  intro result alone all
  have agrees : Session.Agrees files s.anew s := Session.anewAgrees remembers rfl
  have agreesAll : Session.Agrees files s.anew t := Session.anewAgrees remembersAll plugins
  have one (path) : alone path =
      .ofOutcome (w.outcome files s.anew (Path.absolute current path)) :=
    pathAlone w files s.anew current path
  refine ⟨fun paths => ?_,fun path => ?_,fun before path after => passesWithout⟩
  · obtain ⟨passes,errors⟩ := pathsResult w files s current paths
    simp only [outcomeSteady agrees, ← one] at passes errors
    refine ⟨?_,passes,errors⟩
    rw [passes, errors.length_eq]
    simp only [one, ProcessResult.outcomesCount]
  · rw [one path]
    refine ⟨ProcessResult.outcomeCount _,?_,fun pass member => ?_⟩
    · rw [← @outcomeFailed w files s.anew]
      cases w.outcome files s.anew (Path.absolute current path) <;> simp [ProcessResult.ofOutcome]
    · have passed := passedOutcome member
      obtain ⟨d,text,found,_,read,same⟩ := outcomePassed.mp passed
      exact ⟨⟨d,text,found,read,same.symm⟩,passedAmongAll agreesAll passed⟩

theorem missingBetween :
    let files := Files.empty.put ["a.md"] (.file (.text "x") newFileMode)
    let a : Document := ⟨⟨"/a.md"⟩⟩
    let b : Document := ⟨⟨"/b.md"⟩⟩
    let w : Workspace := ⟨⟨"/"⟩,{},[],[a,b]⟩
    let s : Session := ⟨⟨[],["test.none"]⟩,[(a.path,(readLeading files a).1)],[]⟩
    let result paths := ((w.processPaths files ⟨"/"⟩ paths).run s).1
    let pass := ((a.processText files w "x").run s.anew).1
    s.Remembers files ∧ (Session.start .empty).Remembers files ∧
      Unprocessed w files (Path.absolute ⟨"/"⟩ b.path) ∧
      (result ([a.path] ++ b.path :: [a.path])).passes.length +
        (result ([a.path] ++ b.path :: [a.path])).errors.length = 3 ∧
      (result ([a.path] ++ b.path :: [a.path])).passes = (result ([a.path] ++ [a.path])).passes ∧
      (result ([a.path] ++ [a.path])).passes = [pass,pass] := by
  intro files a b w s result pass
  have remembers : s.Remembers files := by
    intro path arguments known
    change List.lookup path [(a.path,(readLeading files a).1)] = some arguments at known
    rw [List.lookup_cons] at known
    split at known
    · rename_i same
      cases eq_of_beq same
      exact (Option.some.inj known).symm
    · cases known
  have fresh : (Session.start .empty).Remembers files := by
    intro path arguments known
    cases known
  have unread : Unprocessed w files (Path.absolute ⟨"/"⟩ b.path) :=
    .unreadable b (by decide) .notFound (.inl (by cbv))
  obtain ⟨all,_,without⟩ := pathsApart w files s (.start .empty) ⟨"/"⟩ remembers fresh rfl
  have read : w.readDocument files a = .ok "x" := documentRead.mpr ⟨by cbv,by decide⟩
  have passed : w.outcome files s.anew (Path.absolute ⟨"/"⟩ a.path) = .ok pass :=
    outcomePassed.mpr ⟨a,"x",by decide,by cbv,read,rfl⟩
  have single : ((w.processPaths files ⟨"/"⟩ [a.path]).run s.anew).1.passes = [pass] := by
    rw [pathAlone, passed]
    rfl
  refine ⟨remembers,fresh,unread,(all _).1,without [a.path] b.path [a.path] unread,?_⟩
  rw [(all _).2.1, List.flatMap_append, List.flatMap_singleton, single]
  rfl

end Workspace

end DocBlocks
