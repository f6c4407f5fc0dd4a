import DocBlocks.Proofs.Block.Restart
import DocBlocks.Proofs.Block.Runs
import DocBlocks.Proofs.Document.Regenerated
import DocBlocks.Proofs.Position
import Mathlib.Data.List.Forall2

/-! The fragments of a document lie side by side over its whole text, none of them empty. Each block of
the text has one report, in the order of the text, and those reported as generated are the blocks that
are bound to a generator. -/
namespace DocBlocks

def BlockReport.place (report : BlockReport) : Nat × Nat := (report.line,report.column)

namespace Scanner
open Text (Boundary)

inductive Standing (text : List Char) (lines : LineTable) : Nat → List Block → Prop where
  | nil (offset : Nat) : Standing text lines offset []
  | cons {offset : Nat} {block : Block} {rest : List Block} :
      offset ≤ block.span.start.offset → block.span.start.offset < block.span.stop.offset →
      Boundary text block.span.start.offset → Boundary text block.span.stop.offset →
      block.opening.start = lines.point block.span.start.offset →
      Standing text lines block.span.stop.offset rest → Standing text lines offset (block :: rest)

theorem callLines (s : Scanner) : s.nextBlock.2.lines = s.lines ∧
    ∀ block, s.nextBlock.1 = some block →
      block.opening.start = s.lines.point block.span.start.offset := by
  unfold nextBlock
  split
  · exact ⟨rfl,nofun⟩
  · split
    · exact ⟨rfl,nofun⟩
    · refine ⟨rfl,?_⟩
      intro block same
      cases same
      rfl

theorem blocksStanding {text : List Char} {s : Scanner} (within : s.Within text) :
    Standing text s.lines s.offset s.blocks := by
  generalize found : s.blocks = blocks
  -- along the blocks, with the scanner as each call leaves it
  induction blocks generalizing s with
  | nil => exact .nil _
  | cons block rest ih =>
      rw [blocksNext] at found
      split at found
      · cases found
      · rename_i first next search
        obtain ⟨rfl,later⟩ := List.cons.inj found
        have moves := callMoves within .block
        obtain ⟨kept,opens⟩ := callLines s
        rw [call, search] at moves
        rw [search] at kept opens
        obtain ⟨start,forward,stop⟩ := moves.placed _ rfl
        have between := moves.between _ rfl first.span (by simp [Result.places])
        have others := ih moves.within later
        rw [kept, ← stop] at others
        exact .cons start forward between.1 between.2 (opens _ rfl) others

theorem standingMember {text : List Char} {lines : LineTable} {offset : Nat} {blocks : List Block}
    (standing : Standing text lines offset blocks) : ∀ block ∈ blocks,
      offset ≤ block.span.start.offset ∧
        block.opening.start = lines.point block.span.start.offset := by
  induction standing with
  | nil => nofun
  | cons start forward _ _ opens _ ih =>
      intro block member
      rcases List.mem_cons.mp member with rfl | later
      · exact ⟨start,opens⟩
      · obtain ⟨behind,opens⟩ := ih block later
        exact ⟨by omega,opens⟩

theorem standingOnward {text : List Char} {lines : LineTable} {offset : Nat} {blocks : List Block}
    (standing : Standing text lines offset blocks) :
    blocks.Pairwise fun a b => Earlier a.opening.start.place b.opening.start.place := by
  induction standing with
  | nil => exact .nil
  | cons _ forward _ _ opens later ih =>
      refine List.pairwise_cons.mpr ⟨?_,ih⟩
      intro other member
      obtain ⟨behind,opens'⟩ := standingMember later other member
      rw [opens, opens']
      exact lines.pointOnward (by omega)

end Scanner

open Text (Boundary)
open Scanner (Standing)

namespace Fragment

inductive Tiles (text : List Char) : Nat → List Fragment → Nat → Prop where
  | nil (offset : Nat) : Tiles text offset [] offset
  | cons {start stop : Nat} {f : Fragment} {rest : List Fragment} :
      f.range.1 = start → start < f.range.2 → Boundary text f.range.2 →
      Tiles text f.range.2 rest stop → Tiles text start (f :: rest) stop

variable {text : List Char} {g : CommentGrammar} {s : Session} {lines : LineTable}

theorem tilesAppend {a b c : Nat} {first rest : List Fragment} (one : Tiles text a first b)
    (two : Tiles text b rest c) : Tiles text a (first ++ rest) c := by
  induction one with
  | nil => exact two
  | cons start filled between _ ih => exact .cons start filled between (ih two)

theorem gapTiles {start stop : Nat} (le : start ≤ stop) (between : Boundary text stop) :
    Tiles text start (gap start stop) stop := by
  unfold gap
  split
  · rename_i less
    exact .cons rfl less between (.nil stop)
  · rw [Nat.le_antisymm le (by omega)]
    exact .nil stop

theorem tilesWhole {before rest : List Char} {fragments : List Fragment}
    (tiles : Tiles text (Text.size before) fragments (Text.size text))
    (whole : text = before ++ rest) : fragments.flatMap (original text) = rest := by
  generalize start : Text.size before = offset at tiles
  generalize stop : Text.size text = last at tiles
  -- each tile takes a part off the front of what is left of the text
  induction tiles generalizing before rest with
  | nil offset =>
      rw [whole, Text.size_append] at stop
      have none : rest = [] := Text.sizeZero (by omega)
      rw [none]
      rfl
  | @cons offset stop f others first filled between _ ih =>
      obtain ⟨before',rest',split,ends⟩ := between
      have shorter := (Text.sizePrefix whole split).mp (by omega)
      obtain ⟨part,rfl⟩ := List.prefix_of_prefix_length_le ⟨rest,whole.symm⟩ ⟨rest',split.symm⟩ shorter
      have ahead : rest = part ++ rest' := by
        rw [whole, List.append_assoc] at split
        exact List.append_cancel_left split
      have here : original text f = part := by
        rw [Text.size_append] at ends
        rw [original, first, ends, ← start, whole, ahead]
        exact Text.sliceMiddle before part rest'
      rw [List.flatMap_cons, here, ih split ends.symm stop, ahead]

theorem ofBlockRange (block : Block) :
    ((ofBlock g block).run s).1.range = (block.span.start.offset,block.span.stop.offset) := by
  rcases ofBlockEither g block s with ⟨status,_,kept⟩ | ⟨target,bound,rfl⟩
  · rw [kept]
    rfl
  · rw [bound]
    rfl

theorem boundaryInside {offset : Nat} (between : Boundary text offset) : offset ≤ Text.size text := by
  obtain ⟨before,rest,rfl,rfl⟩ := between
  rw [Text.size_append]
  omega

theorem ofBlocksTiles {offset : Nat} {blocks : List Block} (standing : Standing text lines offset blocks)
    (inside : offset ≤ Text.size text) :
    Tiles text offset ((ofBlocks g (Text.size text) offset blocks).run s).1 (Text.size text) := by
  have last : Boundary text (Text.size text) := ⟨text,[],by simp,rfl⟩
  induction standing with
  | nil offset => exact gapTiles inside last
  | @cons offset block rest le less start stop _ _ ih =>
      rw [ofBlocksResult .empty]
      refine tilesAppend (gapTiles le start) ?_
      have range := @ofBlockRange g s block
      refine .cons (congrArg Prod.fst range) ?_ ?_ ?_
      · rw [range]
        exact less
      · rw [range]
        exact stop
      · rw [range]
        exact ih (boundaryInside stop)

def target? : Fragment → Option BoundBlock
  | bound target => some target
  | _ => none

structure Reported (blocks : List Block) (fragments : List Fragment) : Prop where
  each : List.Forall₂ (fun block report => report = block.report report.status) blocks
    (fragments.filterMap (·.report?))
  generated : (fragments.filterMap (·.target?)).map (·.block) =
    ((blocks.zip (fragments.filterMap (·.report?))).filter (·.2.status = .generated)).map (·.1)

theorem reportedPoints {blocks : List Block} {reports : List BlockReport}
    (each : List.Forall₂ (fun block report => report = block.report report.status) blocks reports) :
    reports.map BlockReport.place = blocks.map fun block => block.opening.start.place := by
  induction each with
  | nil => rfl
  | cons same _ ih =>
      rw [List.map_cons, List.map_cons, ih, same]
      rfl

theorem gapUnreported (start stop : Nat) (fragments : List Fragment) :
    (gap start stop ++ fragments).filterMap (·.report?) = fragments.filterMap (·.report?) ∧
      (gap start stop ++ fragments).filterMap (·.target?) = fragments.filterMap (·.target?) := by
  unfold gap
  split <;> exact ⟨rfl,rfl⟩

theorem ofBlocksReported (g : CommentGrammar) (size : Nat) (s : Session) (offset : Nat)
    (blocks : List Block) : Reported blocks ((ofBlocks g size offset blocks).run s).1 := by
  induction blocks generalizing offset with
  | nil =>
      obtain ⟨reports,targets⟩ := gapUnreported offset size []
      rw [List.append_nil] at reports targets
      refine ⟨?_,?_⟩
      · change List.Forall₂ _ [] ((gap offset size).filterMap _)
        rw [reports]
        exact .nil
      · change ((gap offset size).filterMap _).map _ = _
        rw [targets]
        rfl
  | cons block rest ih =>
      obtain ⟨each,generated⟩ := ih block.span.stop.offset
      rw [ofBlocksResult .empty]
      obtain ⟨reports,targets⟩ := gapUnreported offset block.span.start.offset
        (((ofBlock g block).run s).1 :: ((ofBlocks g size block.span.stop.offset rest).run s).1)
      rcases ofBlockEither g block s with ⟨status,other,kept⟩ | ⟨target,bound,here⟩
      · rw [kept] at reports targets
        rw [kept]
        refine ⟨?_,?_⟩
        · rw [reports]
          exact .cons rfl each
        · rw [targets, reports]
          simpa [report?, target?, Block.report, other] using generated
      · rw [bound] at reports targets
        rw [bound]
        refine ⟨?_,?_⟩
        · rw [reports]
          exact .cons (by rw [here]; rfl) each
        · rw [targets, reports]
          simpa [report?, target?, Block.report, here] using generated

end Fragment

namespace Document
open Fragment (Tiles Reported)

structure Tiled (g : CommentGrammar) (text : List Char) (fragments : List Fragment) : Prop where
  tiles : Tiles text 0 fragments (Text.size text)
  whole : fragments.flatMap (Fragment.original text) = text
  reported : Reported (Block.findAll g text) fragments
  ordered : (fragments.filterMap (·.report?)).Pairwise fun a b => Earlier a.place b.place

/- The fragments of a document tile its text, and their reports are those of its blocks. -/
theorem fragmentsTiled (d : Document) (text : List Char) (s : Session) :
    Tiled d.grammar text ((d.fragments text).run s).1 := by
  have begins := Scanner.startWithin d.grammar text 0
  have standing : Standing text (.ofText text) 0 (Block.findAll d.grammar text) := by
    have least : min 0 (Text.size text) = 0 := Nat.zero_min _
    have standing := Scanner.blocksStanding begins
    rwa [show (Scanner.startingAt d.grammar text 0).offset = 0 from least] at standing
  have tiles := Fragment.ofBlocksTiles (g := d.grammar) (s := s) standing (Nat.zero_le _)
  have reported := Fragment.ofBlocksReported d.grammar (Text.size text) s 0
    (Block.findAll d.grammar text)
  refine ⟨tiles,@Fragment.tilesWhole text [] text _ tiles rfl,reported,?_⟩
  have onward := Scanner.standingOnward standing
  rw [← List.pairwise_map (R := Earlier), ← Fragment.reportedPoints reported.each] at onward
  exact List.pairwise_map.mp onward

end Document

end DocBlocks
