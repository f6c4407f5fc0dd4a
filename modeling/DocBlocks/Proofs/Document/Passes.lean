import DocBlocks.Proofs.Document.Regenerated
import DocBlocks.Proofs.Text.Slices

/-! A pass over a markdown text keeps the gaps between the blocks and writes each regenerated block
anew. A second pass finds the same blocks between the same gaps, and writes them the same way. -/
namespace DocBlocks.Tag

def Piece.anew (piece : Piece) : Option (Arguments × String) → Piece
  | none => piece
  | some (a,body) =>
      ⟨piece.command,a.written,entryText piece.command a.written body.toList,true⟩

def anewAll (f : Block → Option (Arguments × String)) :
    List (List Char × Piece) → List Block → List (List Char × Piece)
  | (gap,piece) :: pieces,block :: blocks => (gap,piece.anew (f block)) :: anewAll f pieces blocks
  | _,_ => []

end DocBlocks.Tag

namespace DocBlocks.Document
open Work CommentGrammar Tag

variable {d : Document} {files : Files} {w : Workspace} {s : Session}

def fragmentText (d : Document) (files : Files) (w : Workspace) (s : Session) (text : List Char)
    (f : Fragment) : List Char := ((d.render files w text f).run s).1.text

theorem betweenText (text : List Char) (start stop : Nat) :
    d.fragmentText files w s text (.between start stop) = Text.slice start stop text := rfl

theorem gapText {before gap rest text : List Char} (whole : text = before ++ (gap ++ rest)) :
    (Fragment.gap (Text.size before) (Text.size before + Text.size gap)).flatMap
      (d.fragmentText files w s text) = gap := by
  subst whole
  unfold Fragment.gap
  split
  · rw [List.flatMap_cons, List.flatMap_nil, List.append_nil, betweenText, Text.sliceMiddle]
  · rename_i none
    have empty : Text.size gap = 0 := by omega
    rw [Text.sizeZero empty]
    rfl

theorem blockText (kind : d.grammar = markdown) {block : Block} {piece : Piece}
    (command : block.command = String.ofList piece.command) {before rest text : List Char}
    (whole : text = before ++ (piece.text ++ rest))
    (start : block.span.start.offset = Text.size before)
    (stop : block.span.stop.offset = Text.size before + Text.size piece.text) :
    d.fragmentText files w s text ((Fragment.ofBlock d.grammar block).run s).1 =
      (piece.anew (d.regenerated? files w s block)).text := by
  cases outcome : d.regenerated? files w s block with
  | none =>
      refine (renderKept outcome).trans ?_
      rw [start, stop, whole]
      exact Text.sliceMiddle before piece.text rest
  | some new =>
      obtain ⟨a,body⟩ := new
      refine (renderNew kind outcome).trans ?_
      rw [command, String.toList_ofList]
      rfl

theorem fragmentsText (kind : d.grammar = markdown) {offset : Nat}
    {pieces : List (List Char × Piece)} {blocks : List Block} (placed : Placed offset pieces blocks)
    {text before last : List Char} (whole : text = before ++ assembled Piece.text pieces last)
    (size : offset = Text.size before) :
    ((Fragment.ofBlocks d.grammar (Text.size text) offset blocks).run s).1.flatMap
        (d.fragmentText files w s text) =
      assembled Piece.text (anewAll (d.regenerated? files w s) pieces blocks) last := by
  -- the fragments follow one another as the pieces do: a gap, then a block
  induction placed generalizing before with
  | nil offset =>
      have rest : text = before ++ (last ++ []) := by rw [whole, List.append_nil]; rfl
      have ends : Text.size text = Text.size before + Text.size last := by rw [rest]; simp
      rw [size, ends]
      exact gapText rest
  | @cons offset gap piece block pieces blocks command arguments closed start stop others ih =>
      subst size
      have split : text = before ++ (gap ++ (piece.text ++ assembled Piece.text pieces last)) := by
        rw [whole]
        simp [assembled]
      have split' : text = (before ++ gap) ++ (piece.text ++ assembled Piece.text pieces last) := by
        rw [split, List.append_assoc]
      have split'' : text = (before ++ (gap ++ piece.text)) ++ assembled Piece.text pieces last := by
        rw [split]
        simp
      have first := @gapText d files w s _ _ _ _ split
      have second := @blockText d files w s kind block piece command _ _ _ split'
        (by rw [start, Text.size_append]) (by rw [stop, Text.size_append])
      have third := ih split'' (by simp [Nat.add_assoc])
      rw [Fragment.ofBlocksResult files, List.flatMap_append, List.flatMap_cons, start, first, second,
        stop, third]
      simp [assembled, anewAll]

def WritesSafely (d : Document) (files : Files) (w : Workspace) (s : Session) (text : List Char) :
    Prop :=
  ∀ target, .bound target ∈ ((d.fragments text).run s).1 → ∀ body,
    ((d.renderBody files w target).run s).1 = .ok body → TagSafe target.arguments body

theorem fragmentMember {g : CommentGrammar} {size offset : Nat} {blocks : List Block} {block : Block}
    (files : Files) (member : block ∈ blocks) :
    ((Fragment.ofBlock g block).run s).1 ∈
      ((Fragment.ofBlocks g size offset blocks).run s).1 := by
  induction blocks generalizing offset with
  | nil => cases member
  | cons first rest ih =>
      rw [Fragment.ofBlocksResult files]
      refine List.mem_append_right _ ?_
      rcases List.mem_cons.mp member with rfl | later
      · exact List.mem_cons_self
      · exact List.mem_cons_of_mem _ (ih later)

theorem boundMember {g : CommentGrammar} {size offset : Nat} {blocks : List Block}
    {target : BoundBlock} (files : Files)
    (member : .bound target ∈ ((Fragment.ofBlocks g size offset blocks).run s).1) :
    ∃ block ∈ blocks, ((Fragment.ofBlock g block).run s).1 = .bound target := by
  have noGap : ∀ start stop, Fragment.bound target ∉ Fragment.gap start stop := by
    intro start stop inside
    unfold Fragment.gap at inside
    split at inside <;> simp at inside
  induction blocks generalizing offset with
  | nil => exact absurd member (noGap _ _)
  | cons first rest ih =>
      rw [Fragment.ofBlocksResult files] at member
      rcases List.mem_append.mp member with between | member
      · exact absurd between (noGap _ _)
      · rcases List.mem_cons.mp member with here | later
        · exact ⟨first,List.mem_cons_self,here.symm⟩
        · obtain ⟨block,inside,bound⟩ := ih later
          exact ⟨block,List.mem_cons_of_mem _ inside,bound⟩

theorem boundRegenerated {text : List Char} {target : BoundBlock} {body : String}
    (member : .bound target ∈ ((d.fragments text).run s).1)
    (rendered : ((d.renderBody files w target).run s).1 = .ok body) :
    ∃ block ∈ Block.findAll d.grammar text,
      d.regenerated? files w s block = some (target.arguments,body) := by
  obtain ⟨block,inside,bound⟩ := boundMember files member
  exact ⟨block,inside,regeneratedBound.mpr ⟨target,bound,rendered,rfl⟩⟩

theorem safeBlock {text : List Char} (safe : d.WritesSafely files w s text) {block : Block}
    (member : block ∈ Block.findAll d.grammar text) {a : Arguments} {body : String}
    (new : d.regenerated? files w s block = some (a,body)) : TagSafe a body := by
  obtain ⟨target,bound,rendered,rfl⟩ := regeneratedBound.mp new
  refine safe target ?_ body rendered
  rw [← bound]
  exact fragmentMember files member

theorem anewRewritten (fixed : ∀ plugin ∈ s.registry.plugins, plugin.Fixed) {offset : Nat}
    {pieces : List (List Char × Piece)} {blocks : List Block} (placed : Placed offset pieces blocks)
    (safe : ∀ block ∈ blocks, ∀ a body, d.regenerated? files w s block = some (a,body) →
      TagSafe a body) :
    AllRewritten pieces (anewAll (d.regenerated? files w s) pieces blocks) := by
  induction placed with
  | nil => exact .nil
  | @cons offset gap piece block pieces blocks command arguments closed start stop others ih =>
      refine .cons ?_ (ih fun block member => safe block (List.mem_cons_of_mem _ member))
      cases outcome : d.regenerated? files w s block with
      | none => exact .same piece
      | some new =>
          obtain ⟨a,body⟩ := new
          have written := regeneratedSafe fixed outcome (safe block List.mem_cons_self a body outcome)
          rw [command, String.toList_ofList] at written
          have ends : piece.closed = true := by
            rw [← closed]
            exact (regeneratedIff.mp outcome).2.1
          obtain ⟨name,raw,text,_⟩ := piece
          subst ends
          exact .entry written

theorem anewAgain (fixed : ∀ plugin ∈ s.registry.plugins, plugin.Fixed) {offset offset' : Nat}
    {pieces : List (List Char × Piece)} {blocks blocks' : List Block}
    (placed : Placed offset pieces blocks)
    (safe : ∀ block ∈ blocks, ∀ a body, d.regenerated? files w s block = some (a,body) →
      TagSafe a body)
    (placed' : Placed offset' (anewAll (d.regenerated? files w s) pieces blocks) blocks') :
    anewAll (d.regenerated? files w s) (anewAll (d.regenerated? files w s) pieces blocks) blocks' =
      anewAll (d.regenerated? files w s) pieces blocks := by
  -- the blocks stand elsewhere in the second text, but with the same commands and arguments
  induction placed generalizing offset' blocks' with
  | nil =>
      cases placed'
      rfl
  | @cons offset gap piece block pieces blocks command arguments closed start stop others ih =>
      cases placed' with
      | @cons _ _ _ block' _ blocks' command' arguments' closed' start' stop' others' =>
          have later := ih (fun block member => safe block (List.mem_cons_of_mem _ member)) others'
          have here : (piece.anew (d.regenerated? files w s block)).anew
              (d.regenerated? files w s block') = piece.anew (d.regenerated? files w s block) := by
            cases outcome : d.regenerated? files w s block with
            | none =>
                rw [outcome] at command' arguments' closed'
                have same := @regeneratedSame d files w s block block' fixed
                  (command'.trans command.symm) (arguments'.trans arguments.symm)
                  (closed'.trans closed.symm)
                rw [same, outcome]
                rfl
            | some new =>
                obtain ⟨a,body⟩ := new
                rw [outcome] at command' arguments' closed'
                have same := regeneratedAgain fixed outcome
                  (safe block List.mem_cons_self a body outcome) (command'.trans command.symm)
                  arguments' closed'
                rw [same]
                rfl
          rw [anewAll, anewAll, later, here]

theorem findAllCursor (text : List Char) : Block.findAll markdown text =
    Block.fromCursor markdown (.ofText text) 0 text := by
  rw [Block.findAll, Scanner.ofTextWhole]
  rfl

theorem blocksPlaced {text last : List Char} {pieces : List (List Char × Piece)}
    (trace : Trace text pieces last) : Placed 0 pieces (Block.findAll markdown text) := by
  rw [findAllCursor]
  exact tracePlaced trace _ 0

theorem passText (kind : d.grammar = markdown) {text last : List Char}
    {pieces : List (List Char × Piece)} (trace : Trace text pieces last) :
    ((d.processText files w (String.ofList text)).run s).1.text = String.ofList (assembled Piece.text
      (anewAll (d.regenerated? files w s) pieces (Block.findAll markdown text)) last) := by
  rw [processTextResult, String.toList_ofList, ← fragmentsText kind (blocksPlaced trace)
    (show text = [] ++ assembled Piece.text pieces last from (traceWhole trace).symm) rfl]
  unfold fragments
  rw [kind]
  rfl

theorem secondPass (kind : d.grammar = markdown)
    (fixed : ∀ plugin ∈ s.registry.plugins, plugin.Fixed) {text : String}
    (safe : d.WritesSafely files w s text.toList) {again : String}
    (written : again = ((d.processText files w text).run s).1.text) :
    ((d.processText files w again).run s).1.text = again := by
  obtain ⟨pieces,last,trace⟩ := traceExists text.toList
  have placed := blocksPlaced trace
  have each : ∀ block ∈ Block.findAll markdown text.toList, ∀ a body,
      d.regenerated? files w s block = some (a,body) → TagSafe a body := by
    intro block member a body new
    refine safeBlock safe ?_ new
    rw [kind]
    exact member
  have trace' := traceRewritten trace (anewRewritten fixed placed each)
  have one := @passText d files w s kind _ _ _ trace
  have two := @passText d files w s kind _ _ _ trace'
  rw [String.ofList_toList, ← written] at one
  rw [anewAgain fixed placed each (blocksPlaced trace'), ← one] at two
  exact two

/- Regenerating what was regenerated changes nothing, whatever stands between the blocks. The second
pass begins in the session that the first one left. -/
theorem regenerationIdempotent (kind : d.grammar = markdown)
    (fixed : ∀ plugin ∈ s.registry.plugins, plugin.Fixed) (text : String)
    (safe : d.WritesSafely files w s text.toList) :
    ((d.processText files w ((d.processText files w text).run s).1.text).run
        ((d.processText files w text).run s).2).1.text =
      ((d.processText files w text).run s).1.text := by
  have first := steadyProcessText d files w text s
  have steady := (steadyProcessText d files w ((d.processText files w text).run s).1.text s).2 _ first.1
  rw [steady]
  exact secondPass kind fixed safe rfl

theorem entryBlock (gap : List Char) {command arguments body : List Char} (plain : '<' ∉ gap)
    (safe : Tag.Safe command arguments body) {block : Block}
    (member : block ∈ Block.findAll markdown (gap ++ entryText command arguments body)) :
    block.command = String.ofList command ∧ block.arguments = String.ofList arguments ∧
      block.closing.isSome = true := by
  have placed := blocksPlaced (entryTrace plain safe)
  generalize Block.findAll markdown _ = blocks at placed member
  cases placed with
  | cons command arguments closed _ _ others =>
      cases others
      cases List.mem_singleton.mp member
      exact ⟨command,arguments,closed⟩

theorem echoSafe : TagSafe ⟨[("text",.string "b")]⟩ "b" := by
  have string : Value.FloatFree (.string "b") := by
    intro x inside
    cases inside
  refine ⟨?_,?_,Delimiter.findNone.mp (by decide),Delimiter.findNone.mp (by decide)⟩
  · intro name value member
    cases List.mem_singleton.mp member
    exact string
  · intro name value member
    cases List.mem_singleton.mp member
    exact Value.keyedScalar trivial

def echoText : String :=
  String.ofList ("x\n".toList ++
    entryText "test.echo".toList (Arguments.written ⟨[("text",.string "b")]⟩) ['a'])

theorem echoIdempotent :
    let d : Document := ⟨⟨"a.md"⟩⟩
    let w : Workspace := ⟨⟨"/"⟩,{},[],[]⟩
    let s : Session := .start ⟨[.echo "test.echo"],[]⟩
    d.grammar = markdown ∧ (∀ plugin ∈ s.registry.plugins, plugin.Fixed) ∧
    d.WritesSafely .empty w s echoText.toList ∧
    ((d.processText .empty w ((d.processText .empty w echoText).run s).1.text).run
        ((d.processText .empty w echoText).run s).2).1.text =
      ((d.processText .empty w echoText).run s).1.text := by
  intro d w s
  have kind : d.grammar = markdown := by cbv
  have fixed : ∀ plugin ∈ s.registry.plugins, plugin.Fixed := by
    intro plugin member
    rw [List.mem_singleton.mp member]
    exact ⟨_,Plugin.echoFixed _⟩
  have written : Tag.Safe "test.echo".toList (Arguments.written ⟨[("text",.string "b")]⟩) ['a'] := by
    refine ⟨Tag.writtenOpen (by decide) (List.all_eq_true.mp (by decide)) echoSafe.closers,by cbv,
      by decide,?_,
      Tag.writtenFree echoSafe.closers,Delimiter.findNone.mp (by decide)⟩
    refine Arguments.writtenFenced fun name member => ?_
    rw [List.mem_singleton.mp member]
    exact Plugin.textNamed
  have safe : d.WritesSafely .empty w s echoText.toList := by
    intro target member body rendered
    obtain ⟨block,inside,new⟩ := boundRegenerated member rendered
    rw [kind, echoText, String.toList_ofList] at inside
    obtain ⟨command,arguments,closed⟩ :=
      entryBlock "x\n".toList (by decide) written inside
    obtain ⟨_,_,plugin,generator,after,found,run,rendered,same⟩ := regeneratedIff.mp new
    have parsed : Arguments.parse block.arguments = ⟨[("text",.string "b")]⟩ := by
      rw [arguments]
      cbv
    have one : Registry.lookup ⟨[.echo "test.echo"],[]⟩ "test.echo" = .ok (.echo "test.echo") := by
      cbv
    rw [command] at found run
    cases one.symm.trans found
    rw [parsed] at run
    cases run
    cases rendered
    rw [← same]
    exact echoSafe
  exact ⟨kind,fixed,safe,regenerationIdempotent kind fixed echoText safe⟩

end DocBlocks.Document
