import DocBlocks.Proofs.Block.Extent
import DocBlocks.Proofs.Block.Search
import DocBlocks.Proofs.Document.Passes

/-! What a pass over a text does to each of its blocks, in every comment grammar. The gaps between the
blocks stay, and what becomes of a block depends on no other block. -/
namespace DocBlocks

structure Part where
  gap : List Char
  block : Block
  text : List Char

namespace Part

def spliced (place : Part → List Char) (parts : List Part) (last : List Char) : List Char :=
  parts.flatMap (fun part => part.gap ++ place part) ++ last

def Spanned : Nat → List Part → Prop
  | _, [] => True
  | offset, part :: parts =>
      part.block.span.start.offset = offset + Text.size part.gap ∧
      part.block.span.stop.offset = offset + Text.size part.gap + Text.size part.text ∧
      Spanned (offset + Text.size part.gap + Text.size part.text) parts

structure Cut (g : CommentGrammar) (text : List Char) (parts : List Part) (last : List Char) : Prop where
  blocks : parts.map (·.block) = Block.findAll g text
  whole : text = spliced (·.text) parts last
  spans : Spanned 0 parts

theorem splicedCons (place : Part → List Char) (part : Part) (parts : List Part) (last : List Char) :
    spliced place (part :: parts) last = part.gap ++ (place part ++ spliced place parts last) := by
  simp [spliced]

theorem cursorCut (g : CommentGrammar) (lines : LineTable) (offset : Nat) (text : List Char) :
    ∃ parts last, parts.map (·.block) = Block.fromCursor g lines offset text ∧
      text = spliced (·.text) parts last ∧ Spanned offset parts := by
  -- a part is the gap before a block and all the text up to the next search
  fun_induction Block.fromCursor g lines offset text with
  | case1 offset text cursor search => exact ⟨[],text,rfl,rfl,trivial⟩
  | case2 offset text cursor found search ih =>
      obtain ⟨_,gap,tag,_,whole,starts,stops⟩ := Cursor.nextOpeningExtent search
      obtain ⟨span,inner,rest,ends⟩ := Block.ofOpeningExtent g lines found
      obtain ⟨parts,last,blocks,split,spans⟩ := ih
      have stop : (Block.ofOpening g lines found).2.offset =
          offset + Text.size gap + Text.size (tag ++ inner) := by
        rw [ends, stops, starts, Text.size_append, Nat.add_assoc]
      refine ⟨⟨gap,_,tag ++ inner⟩ :: parts,last,by rw [List.map_cons, blocks],?_,?_,?_,?_⟩
      · rw [splicedCons, ← split, whole, rest]
        simp
      · rw [span, starts]
        rfl
      · rw [span, ← stop]
        rfl
      · rw [← stop]
        exact spans

theorem cutExists (g : CommentGrammar) (text : List Char) : ∃ parts last, Cut g text parts last := by
  obtain ⟨parts,last,blocks,whole,spans⟩ := cursorCut g (.ofText text) 0 text
  refine ⟨parts,last,?_,whole,spans⟩
  rw [blocks, Block.findAll, Scanner.ofTextWhole]
  rfl

structure Outcome where
  status : BlockStatus
  text : List Char

end Part

namespace Document
open DocBlocks.Part (Outcome Cut Spanned spliced splicedCons)

variable {d : Document} {files : Files} {w : Workspace} {s : Session} {part : Part}

def outcome (d : Document) (files : Files) (w : Workspace) (s : Session) (part : Part) : Outcome :=
  if part.block.isReserved then ⟨.reserved,part.text⟩
  else if part.block.closing.isNone then ⟨.unclosed,part.text⟩
  else
    match s.registry.lookup part.block.command with
    | .error e => ⟨.unresolved e.message,part.text⟩
    | .ok plugin =>
        match (BoundBlock.bind plugin d.grammar part.block).1 with
        | .error e => ⟨.failed e.message,part.text⟩
        | .ok target =>
            match ((d.renderBody files w target).run s).1 with
            | .error e => ⟨.failed e.message,part.text⟩
            | .ok body => ⟨.generated,(target.entry body).toList⟩

structure Resolves (s : Session) (block : Block) (plugin : Plugin) : Prop where
  free : block.isReserved = false
  closed : block.closing ≠ none
  found : s.registry.lookup block.command = .ok plugin

structure Settled (d : Document) (files : Files) (w : Workspace) (s : Session) (part : Part)
    (result : Outcome) : Prop where
  reserved : result.status = .reserved ↔ part.block.isReserved = true
  unclosed : result.status = .unclosed ↔ part.block.isReserved = false ∧ part.block.closing = none
  unresolved : ∀ reason, result.status = .unresolved reason ↔
    part.block.isReserved = false ∧ part.block.closing ≠ none ∧
      ∃ e, s.registry.lookup part.block.command = .error e ∧ reason = e.message
  failed : ∀ reason, result.status = .failed reason ↔ ∃ plugin, Resolves s part.block plugin ∧
    ∃ e, reason = e.message ∧ ((BoundBlock.bind plugin d.grammar part.block).1 = .error e ∨
      ∃ target, (BoundBlock.bind plugin d.grammar part.block).1 = .ok target ∧
        ((d.renderBody files w target).run s).1 = .error e)
  generated : result.status = .generated ↔ ∃ plugin target body, Resolves s part.block plugin ∧
    (BoundBlock.bind plugin d.grammar part.block).1 = .ok target ∧
    ((d.renderBody files w target).run s).1 = .ok body ∧
    result.text = (target.startTag ++ "\n" ++ body ++ "\n" ++ target.endTag).toList
  kept : result.status ≠ .generated → result.text = part.text

theorem resolvesIff {block : Block} {plugin : Plugin} : Resolves s block plugin ↔
    block.isReserved = false ∧ block.closing ≠ none ∧ s.registry.lookup block.command = .ok plugin :=
  ⟨fun ⟨free,closed,found⟩ => ⟨free,closed,found⟩,fun ⟨free,closed,found⟩ => ⟨free,closed,found⟩⟩

theorem outcomeSettled (d : Document) (files : Files) (w : Workspace) (s : Session) (part : Part) :
    Settled d files w s part (d.outcome files w s part) := by
  unfold outcome
  cases reserved : part.block.isReserved with
  | true => constructor <;> simp [resolvesIff, reserved]
  | false =>
  cases closing : part.block.closing with
  | none => constructor <;> simp [resolvesIff, reserved, closing]
  | some closing =>
  cases found : s.registry.lookup part.block.command with
  | error e => constructor <;> simp [resolvesIff, reserved, closing, found, eq_comm]
  | ok plugin =>
  cases bound : (BoundBlock.bind plugin d.grammar part.block).1 with
  | error e => constructor <;> simp [resolvesIff, reserved, closing, found, bound, eq_comm]
  | ok target =>
  cases rendered : ((d.renderBody files w target).run s).1 with
  | error e => constructor <;> simp [resolvesIff, reserved, closing, found, bound, rendered, eq_comm]
  | ok body =>
      constructor <;>
        simp [resolvesIff, reserved, closing, found, bound, rendered, BoundBlock.entry]

def ended (d : Document) (files : Files) (w : Workspace) (s : Session) (text : List Char)
    (f : Fragment) : Option (Except Error Unit) := ((d.render files w text f).run s).1.ended

theorem processTextReports (d : Document) (files : Files) (w : Workspace) (text : String)
    (s : Session) :
    ((d.processText files w text).run s).1.blocks = BlockReport.settle
      (((d.fragments text.toList).run s).1.filterMap (·.report?))
      (((d.fragments text.toList).run s).1.filterMap (d.ended files w s text.toList)) := by
  have each := Work.steadyMapM (steadyRender d files w text.toList)
  rw [processText, Work.bindResult (steadyFragments d _) fun _ =>
      Work.steadyBind (each _) fun _ => Work.steadyPure _,
    Work.bindResult (each _) fun _ => Work.steadyPure _,
    Work.mapMResult (steadyRender d files w text.toList)]
  exact congrArg (BlockReport.settle _) (List.filterMap_map ..)

theorem settleKept {report : BlockReport} (kept : report.status ≠ .generated)
    (reports : List BlockReport) (later : List (Except Error Unit)) :
    BlockReport.settle (report :: reports) later = report :: BlockReport.settle reports later := by
  cases later with
  | nil => cases reports <;> rfl
  | cons ended later => simp only [BlockReport.settle, if_neg kept]

theorem ofBlockOutcome (d : Document) (files : Files) (w : Workspace) (s : Session) (part : Part) :
    (∃ status, status ≠ .generated ∧ d.outcome files w s part = ⟨status,part.text⟩ ∧
      ((Fragment.ofBlock d.grammar part.block).run s).1 = .kept part.block status) ∨
    ∃ target, ((Fragment.ofBlock d.grammar part.block).run s).1 = .bound target ∧
      target.block = part.block ∧ d.outcome files w s part =
        match ((d.renderBody files w target).run s).1 with
        | .error e => ⟨.failed e.message,part.text⟩
        | .ok body => ⟨.generated,(target.entry body).toList⟩ := by
  unfold outcome
  rw [Fragment.ofBlockRun]
  split
  · exact .inl ⟨.reserved,nofun,rfl,rfl⟩
  split
  · exact .inl ⟨.unclosed,nofun,rfl,rfl⟩
  cases s.registry.lookup part.block.command with
  | error e => exact .inl ⟨.unresolved e.message,nofun,rfl,rfl⟩
  | ok plugin =>
  dsimp only
  cases bound : (BoundBlock.bind plugin d.grammar part.block).1 with
  | error e => exact .inl ⟨.failed e.message,nofun,rfl,rfl⟩
  | ok target =>
      obtain ⟨_,_,_,same⟩ := BoundBlock.bindOk.mp bound
      exact .inr ⟨target,rfl,by rw [same],rfl⟩

theorem settleBlock (text : List Char) (part : Part) (reports : List BlockReport)
    (later : List (Except Error Unit)) :
    BlockReport.settle
        (((Fragment.ofBlock d.grammar part.block).run s).1.report?.toList ++ reports)
        ((d.ended files w s text ((Fragment.ofBlock d.grammar part.block).run s).1).toList ++ later) =
      part.block.report (d.outcome files w s part).status :: BlockReport.settle reports later := by
  rcases ofBlockOutcome d files w s part with ⟨status,other,same,kept⟩ | ⟨target,bound,same,becomes⟩
  · rw [same, kept]
    exact settleKept other reports later
  · rw [becomes, bound, ended, renderBound]
    cases ((d.renderBody files w target).run s).1 with
    | error e => simp [Fragment.report?, BlockReport.settle, Block.report, same]
    | ok body => simp [Fragment.report?, BlockReport.settle, Block.report, same]

theorem outcomeText {before rest text : List Char} (whole : text = before ++ (part.text ++ rest))
    (start : part.block.span.start.offset = Text.size before)
    (stop : part.block.span.stop.offset = Text.size before + Text.size part.text) :
    d.fragmentText files w s text ((Fragment.ofBlock d.grammar part.block).run s).1 =
      (d.outcome files w s part).text := by
  have slice : Text.slice part.block.span.start.offset part.block.span.stop.offset text =
      part.text := by
    rw [start, stop, whole]
    exact Text.sliceMiddle before part.text rest
  rcases ofBlockOutcome d files w s part with ⟨status,_,same,kept⟩ | ⟨target,bound,same,becomes⟩
  · rw [same, kept]
    exact slice
  · rw [becomes, bound, fragmentText, renderBound]
    cases ((d.renderBody files w target).run s).1 with
    | error e =>
        dsimp only [Fragment.original, Fragment.range]
        rw [same]
        exact slice
    | ok body => rfl

theorem gapSilent (start stop : Nat) (text : List Char) :
    (Fragment.gap start stop).filterMap (·.report?) = [] ∧
      (Fragment.gap start stop).filterMap (d.ended files w s text) = [] := by
  unfold Fragment.gap
  split <;> exact ⟨rfl,rfl⟩

theorem filterMapCons {α β : Type} (f : α → Option β) (a : α) (rest : List α) :
    (a :: rest).filterMap f = (f a).toList ++ rest.filterMap f := by
  cases found : f a <;> simp [found]

theorem blocksConfined {parts : List Part} {before last text : List Char}
    (whole : text = before ++ spliced (·.text) parts last) (spans : Spanned (Text.size before) parts) :
    (((Fragment.ofBlocks d.grammar (Text.size text) (Text.size before) (parts.map (·.block))).run s).1
        |>.flatMap (d.fragmentText files w s text)) =
      spliced (fun part => (d.outcome files w s part).text) parts last ∧
    BlockReport.settle
      (((Fragment.ofBlocks d.grammar (Text.size text) (Text.size before) (parts.map (·.block))).run s).1
        |>.filterMap (·.report?))
      (((Fragment.ofBlocks d.grammar (Text.size text) (Text.size before) (parts.map (·.block))).run s).1
        |>.filterMap (d.ended files w s text)) =
      parts.map fun part => part.block.report (d.outcome files w s part).status := by
  -- what stands before a part counts for its offsets alone
  induction parts generalizing before with
  | nil =>
      have rest : text = before ++ (last ++ []) := by rw [whole, List.append_nil]; rfl
      have ends : Text.size text = Text.size before + Text.size last := by rw [rest]; simp
      obtain ⟨reports,silent⟩ := @gapSilent d files w s (Text.size before) (Text.size text) text
      refine ⟨?_,?_⟩
      · rw [ends]
        exact gapText rest
      · change BlockReport.settle ((Fragment.gap _ _).filterMap _) ((Fragment.gap _ _).filterMap _) = []
        rw [reports, silent]
        rfl
  | cons part parts ih =>
      obtain ⟨start,stop,spans⟩ := spans
      rw [splicedCons] at whole
      have split : text = (before ++ part.gap) ++ (part.text ++ spliced (·.text) parts last) := by
        rw [whole, List.append_assoc]
      have split' : text = (before ++ (part.gap ++ part.text)) ++ spliced (·.text) parts last := by
        rw [whole]
        simp
      have size : Text.size (before ++ (part.gap ++ part.text)) =
          Text.size before + Text.size part.gap + Text.size part.text := by
        simp [Nat.add_assoc]
      obtain ⟨texts,reports⟩ := ih split' (by rw [size]; exact spans)
      rw [size] at texts reports
      obtain ⟨noReport,noEnd⟩ := @gapSilent d files w s (Text.size before)
        part.block.span.start.offset text
      have here := @outcomeText d files w s part _ _ _ split (by rw [start, Text.size_append])
        (by rw [stop, Text.size_append])
      rw [List.map_cons, Fragment.ofBlocksResult files, stop]
      refine ⟨?_,?_⟩
      · rw [List.flatMap_append, List.flatMap_cons, here, texts, start, gapText whole, splicedCons]
      · rw [List.filterMap_append, List.filterMap_append, noReport, noEnd, List.nil_append,
          List.nil_append, filterMapCons, filterMapCons, settleBlock, reports, List.map_cons]

/-- What a pass over a text makes of its parts. Two passes do the same to a block whose plugin they have
in common. -/
structure Confined (d : Document) (files : Files) (w : Workspace) (s : Session) (parts : List Part)
    (last : List Char) (pass : DocumentPass) : Prop where
  text : pass.text.toList = spliced (fun part => (d.outcome files w s part).text) parts last
  reports : pass.blocks = parts.map fun part => part.block.report (d.outcome files w s part).status
  settled : ∀ part ∈ parts, Settled d files w s part (d.outcome files w s part)
  apart : ∀ t : Session, t.answers files = s.answers files → ∀ part ∈ parts,
    t.registry.lookup part.block.command = s.registry.lookup part.block.command →
    d.outcome files w t part = d.outcome files w s part

theorem outcomeApart {t : Session} (answers : t.answers files = s.answers files)
    (found : t.registry.lookup part.block.command = s.registry.lookup part.block.command) :
    d.outcome files w t part = d.outcome files w s part := by
  unfold outcome
  rw [found]
  simp only [renderBodyResult, answers]

/- Regeneration touches nothing but the blocks that it generates. -/
theorem processTextConfined (d : Document) (text : String) :
    ∃ parts last, Cut d.grammar text.toList parts last ∧ ∀ files w s,
      Confined d files w s parts last ((d.processText files w text).run s).1 := by
  obtain ⟨parts,last,cut⟩ := Part.cutExists d.grammar text.toList
  refine ⟨parts,last,cut,?_⟩
  intro files w s
  have same : (d.fragments text.toList).run s = (Fragment.ofBlocks d.grammar
      (Text.size text.toList) (Text.size []) (parts.map (·.block))).run s := by
    rw [cut.blocks]
    rfl
  obtain ⟨texts,reports⟩ := @blocksConfined d files w s parts [] last text.toList cut.whole cut.spans
  constructor
  · rw [processTextResult, String.toList_ofList, same]
    exact texts
  · rw [processTextReports, same]
    exact reports
  · exact fun part _ => outcomeSettled d files w s part
  · exact fun t answers part _ found => outcomeApart answers found

end Document

end DocBlocks
