import DocBlocks.Document.Pass

/-! Work on documents reads from a session only its plugins and its answers to questions about leading
arguments, and it changes neither. So each step gives in any later session what it gives in the first
one. -/
namespace DocBlocks.Session

def answers (files : Files) (s : Session) (d : Document) : Arguments :=
  (s.leading.lookup d.path).getD (Work.readLeading files d).1

structure Agrees (files : Files) (s t : Session) : Prop where
  plugins : t.registry.plugins = s.registry.plugins
  answers : t.answers files = s.answers files

variable {files : Files} {s t u : Session}

theorem agreesRefl (files : Files) (s : Session) : Agrees files s s := ⟨rfl,rfl⟩

theorem agreesTrans (first : Agrees files s t) (second : Agrees files t u) : Agrees files s u :=
  ⟨second.plugins.trans first.plugins,second.answers.trans first.answers⟩

theorem answersRemembered (files : Files) (s : Session) (d : Document)
    (absent : s.leading.lookup d.path = none) :
    answers files { s with leading := (d.path,(Work.readLeading files d).1) :: s.leading } =
      answers files s := by
  funext e
  unfold answers
  dsimp only
  rw [List.lookup_cons]
  cases same : e.path == d.path with
  | false => rfl
  | true =>
      have whole : e = d := by
        cases e
        cases d
        exact congrArg Document.mk (beq_iff_eq.mp same)
      rw [whole, absent]
      rfl

end DocBlocks.Session

namespace DocBlocks.Work
open Session (Agrees agreesRefl agreesTrans)

def Steady {α : Type} (files : Files) (x : Work α) : Prop :=
  ∀ s, Agrees files s (x.run s).2 ∧ ∀ t, Agrees files s t → (x.run t).1 = (x.run s).1

variable {α β : Type} {files : Files}

theorem pureRun (a : α) (s : Session) : ((pure a : Work α).run s).1 = a := rfl

theorem bindRun (x : Work α) (f : α → Work β) (s : Session) :
    ((x >>= f).run s).1 = ((f (x.run s).1).run (x.run s).2).1 := rfl

theorem notifyRun (notices : List Notice) (f : Unit → Work α) (s : Session) :
    ((notify notices >>= f).run s).1 =
      ((f ()).run { s with notices := s.notices ++ notices }).1 := rfl

theorem steadyPure (a : α) : Steady files (pure a : Work α) :=
  fun s => ⟨agreesRefl files s,fun _ _ => rfl⟩

/- In what follows a steady step, the session before that step serves as well as the one after it. -/
theorem bindResult {x : Work α} {f : α → Work β} (first : Steady files x)
    (second : ∀ a, Steady files (f a)) (s : Session) :
    ((x >>= f).run s).1 = ((f (x.run s).1).run s).1 :=
  (second (x.run s).1 s).2 _ (first s).1

theorem steadyBind {x : Work α} {f : α → Work β} (first : Steady files x)
    (second : ∀ a, Steady files (f a)) : Steady files (x >>= f) := by
  intro s
  constructor
  · exact agreesTrans (first s).1 (second _ _).1
  · intro t agree
    rw [bindResult first second, bindResult first second, (first s).2 t agree]
    exact (second _ s).2 t agree

theorem steadyNotify (notices : List Notice) : Steady files (notify notices) :=
  fun _ => ⟨⟨rfl,rfl⟩,fun _ _ => rfl⟩

theorem resolveRegistry (r : Registry) (command : String) :
    (r.resolve command).1 = r.lookup command ∧
      (r.resolve command).2.1.plugins = r.plugins := by
  unfold Registry.resolve
  split
  · rename_i found
    exact ⟨found.symm,rfl⟩
  · rename_i missing
    split <;> exact ⟨missing.symm,rfl⟩

theorem lookupPlugins {r r' : Registry} (same : r'.plugins = r.plugins) (command : String) :
    r'.lookup command = r.lookup command := by
  unfold Registry.lookup Registry.registered
  rw [same]

theorem resolveResult (command : String) (s : Session) :
    ((resolve command).run s).1 = s.registry.lookup command :=
  (resolveRegistry s.registry command).1

theorem steadyResolve (command : String) : Steady files (resolve command) := by
  intro s
  refine ⟨⟨(resolveRegistry s.registry command).2,rfl⟩,fun t agree => ?_⟩
  rw [resolveResult, resolveResult]
  exact lookupPlugins agree.plugins command

theorem leadingRun (files : Files) (d : Document) (s : Session) :
    ((leading files d).run s).1 = s.answers files d ∧ Agrees files s ((leading files d).run s).2 := by
  unfold leading Session.answers
  simp only [StateT.run_bind, StateT.run_get, pure_bind]
  cases known : s.leading.lookup d.path with
  | some arguments => exact ⟨rfl,agreesRefl files s⟩
  | none => exact ⟨rfl,⟨rfl,Session.answersRemembered files s d known⟩⟩

theorem steadyLeading (files : Files) (d : Document) : Steady files (leading files d) := by
  intro s
  refine ⟨(leadingRun files d s).2,fun t agree => ?_⟩
  rw [(leadingRun files d t).1, (leadingRun files d s).1, agree.answers]

theorem steadyAnswer (files : Files) (x : Inquiry α) : Steady files (answer files x) := by
  induction x with
  | done result => exact steadyPure result
  | ask d next ih => exact steadyBind (steadyLeading files d) ih

theorem answerResult (files : Files) (x : Inquiry α) (s : Session) :
    ((answer files x).run s).1 = x.answered (s.answers files) := by
  induction x with
  | done result => rfl
  | ask d next ih =>
      rw [answer, bindResult (steadyLeading files d) (fun a => steadyAnswer files (next a)),
        (leadingRun files d s).1, ih]
      rfl

theorem steadyMapM {f : α → Work β} (each : ∀ a, Steady files (f a)) (items : List α) :
    Steady files (items.mapM f) := by
  induction items with
  | nil => exact steadyPure []
  | cons item rest ih =>
      rw [List.mapM_cons]
      exact steadyBind (each item) fun _ => steadyBind ih fun _ => steadyPure _

theorem mapMResult {f : α → Work β} (each : ∀ a, Steady files (f a)) (items : List α) (s : Session) :
    ((items.mapM f).run s).1 = items.map fun item => ((f item).run s).1 := by
  induction items with
  | nil => rfl
  | cons item rest ih =>
      have later := steadyMapM each rest
      rw [List.mapM_cons, bindResult (each item) fun _ => steadyBind later fun _ => steadyPure _,
        bindResult later fun _ => steadyPure _, ih]
      rfl

end DocBlocks.Work

namespace DocBlocks
open Work

variable {files : Files}

theorem Fragment.steadyOfBlock (g : CommentGrammar) (block : Block) :
    Steady files (ofBlock g block) := by
  refine steadyBind (steadyNotify _) fun _ => ?_
  split
  · exact steadyPure _
  split
  · exact steadyPure _
  refine steadyBind (steadyResolve _) fun found => ?_
  cases found with
  | error e => exact steadyPure _
  | ok plugin =>
      refine steadyBind (steadyNotify _) fun _ => ?_
      split
      · exact steadyPure _
      · exact steadyBind (steadyNotify _) fun _ => steadyPure _

theorem Fragment.steadyOfBlocks (g : CommentGrammar) (size offset : Nat) (blocks : List Block) :
    Steady files (ofBlocks g size offset blocks) := by
  induction blocks generalizing offset with
  | nil => exact steadyPure _
  | cons block rest ih =>
      exact steadyBind (steadyOfBlock g block) fun _ => steadyBind (ih _) fun _ => steadyPure _

theorem Fragment.ofBlocksResult (files : Files) (g : CommentGrammar) (size offset : Nat)
    (block : Block) (rest : List Block) (s : Session) :
    ((ofBlocks g size offset (block :: rest)).run s).1 =
      gap offset block.span.start.offset ++ ((ofBlock g block).run s).1 ::
        ((ofBlocks g size block.span.stop.offset rest).run s).1 := by
  have first := @steadyOfBlock files g block
  have later := @steadyOfBlocks files g size block.span.stop.offset rest
  rw [ofBlocks, bindResult first fun _ => steadyBind later fun _ => steadyPure _,
    bindResult later fun _ => steadyPure _]
  rfl

namespace Document

theorem steadyFragments (d : Document) (text : List Char) : Steady files (d.fragments text) :=
  Fragment.steadyOfBlocks _ _ _ _

theorem steadyRender (d : Document) (files : Files) (w : Workspace) (text : List Char)
    (f : Fragment) : Steady files (d.render files w text f) := by
  cases f with
  | between start stop => exact steadyPure _
  | kept block status => exact steadyPure _
  | bound target =>
      refine steadyBind (steadyAnswer files _) fun outcome => ?_
      cases outcome with
      | ok body => exact steadyPure _
      | error e => exact steadyBind (steadyNotify _) fun _ => steadyPure _

theorem steadyProcessText (d : Document) (files : Files) (w : Workspace) (text : String) :
    Steady files (d.processText files w text) :=
  steadyBind (steadyFragments d _) fun _ =>
    steadyBind (steadyMapM (steadyRender d files w _) _) fun _ => steadyPure _

theorem processTextResult (d : Document) (files : Files) (w : Workspace) (text : String)
    (s : Session) :
    ((d.processText files w text).run s).1.text =
      String.ofList (((d.fragments text.toList).run s).1.flatMap fun f =>
        ((d.render files w text.toList f).run s).1.text) := by
  have each := steadyMapM (steadyRender d files w text.toList)
  rw [processText, bindResult (steadyFragments d _) fun _ => steadyBind (each _) fun _ => steadyPure _,
    bindResult (each _) fun _ => steadyPure _, mapMResult (steadyRender d files w text.toList)]
  exact congrArg String.ofList (List.flatMap_map _ _ _)

end Document

end DocBlocks
