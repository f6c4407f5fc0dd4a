import DocBlocks.Proofs.Block.Extent
import DocBlocks.Proofs.Block.Grammar

/-! Scanners that begin within a text. What they find depends only on the text ahead of them: the
offsets count the text before as well, and all else is as in a text that begins there. A scanner that
begins behind a block goes on as the one that found it. -/
namespace DocBlocks

namespace Cursor

def behind (k : Nat) (c : Cursor) : Cursor := ⟨c.offset + k,c.rest⟩

def OpeningMatch.behind (k : Nat) (found : OpeningMatch) : OpeningMatch :=
  { found with start := found.start + k, next := found.next.behind k }

variable {g : CommentGrammar}

theorem nextOpeningBehind (k offset : Nat) (text : List Char) :
    (nextOpening g (offset + k) text).2 =
      (nextOpening g offset text).2.map (OpeningMatch.behind k) := by
  fun_induction nextOpening g offset text with
  | case1 offset text missed =>
      rw [nextOpeningStop missed]
      rfl
  | case2 offset text f here start inside tag read next =>
      rw [nextOpeningStep here, read]
      simp [OpeningMatch.behind, behind, start, inside, next, Nat.add_right_comm]
  | case3 offset text f here start inside rejected ih =>
      rw [nextOpeningStep here, rejected, ← ih]
      simp only [start, inside, Nat.add_right_comm]

theorem closingBehind (command : List Char) (k offset : Nat) (text : List Char) :
    closing? g command (offset + k) text =
      (closing? g command offset text).map fun (start,after) => (start + k,after.behind k) := by
  fun_induction closing? g command offset text with
  | case1 offset text missed =>
      rw [closingStop missed]
      rfl
  | case2 offset text f here start inside size rest read =>
      rw [closingStep here, read]
      simp [behind, start, inside, Nat.add_right_comm]
  | case3 offset text f here start inside rejected ih =>
      rw [closingStep here, rejected, ← ih]
      simp only [start, inside, Nat.add_right_comm]

theorem atEndBehind (k : Nat) (c : Cursor) : (c.behind k).atEnd = c.atEnd.behind k := by
  simp only [atEnd, behind, Nat.add_right_comm]

end Cursor

def Position.behind (lines : LineTable) (k : Nat) (p : Position) : Position :=
  lines.position (p.start.offset + k) (p.stop.offset + k)

namespace Block

variable {g : CommentGrammar} {lines : LineTable}

def behind (lines : LineTable) (k : Nat) (b : Block) : Block :=
  { b with
    opening := b.opening.behind lines k
    closing := b.closing.map (Position.behind lines k)
    span := b.span.behind lines k }

theorem ofOpeningBehind (lines lines' : LineTable) (k : Nat) (found : Cursor.OpeningMatch) :
    ofOpening g lines' (found.behind k) =
      ((ofOpening g lines found).1.behind lines' k,(ofOpening g lines found).2.behind k) := by
  have closes := @Cursor.closingBehind g found.command k found.next.offset found.next.rest
  have closes' : Cursor.closing? g (found.behind k).command (found.behind k).next.offset
      (found.behind k).next.rest = _ := closes
  have named : (Opening.ofMatch lines' (found.behind k)).command =
      (Opening.ofMatch lines found).command := rfl
  simp only [ofOpening, closes', named]
  cases Cursor.closing? g found.command found.next.offset found.next.rest with
  | some closing => rfl
  | none =>
      simp only [Option.map_none]
      split
      · rfl
      · have ends : (found.behind k).next.atEnd = found.next.atEnd.behind k :=
          Cursor.atEndBehind k found.next
        rw [ends]
        rfl

theorem fromCursorBehind (lines lines' : LineTable) (k offset : Nat) (text : List Char) :
    fromCursor g lines' (offset + k) text =
      (fromCursor g lines offset text).map (Block.behind lines' k) := by
  -- every search is moved by the same number of bytes, and so is where it ends
  fun_induction fromCursor g lines offset text with
  | case1 offset text cursor search =>
      have moved := @Cursor.nextOpeningBehind g k offset text
      rw [search] at moved
      rw [fromCursor]
      split
      · rfl
      · rename_i again
        rw [again] at moved
        cases moved
  | case2 offset text cursor found search ih =>
      have moved := @Cursor.nextOpeningBehind g k offset text
      rw [search] at moved
      rw [fromCursor]
      split
      · rename_i again
        rw [again] at moved
        cases moved
      · rename_i again
        rw [again] at moved
        cases moved
        rw [ofOpeningBehind lines, List.map_cons, ← ih]
        rfl

end Block

namespace Scanner

variable {g : CommentGrammar}

theorem startingBlocks (g : CommentGrammar) (before rest : List Char) :
    (startingAt g (before ++ rest) (Text.size before)).blocks =
      Block.fromCursor g (.ofText (before ++ rest)) (Text.size before) rest := by
  rw [startingBetween]
  rfl

theorem blocksNext (s : Scanner) : s.blocks =
    match s.nextBlock with
    | (none,_) => []
    | (some block,next) => block :: next.blocks := by
  unfold blocks nextBlock
  cases s.rest with
  | none => rfl
  | some text =>
      dsimp only
      rw [Block.fromCursor]
      split
      · rename_i search
        rw [search]
      · rename_i search
        rw [search]
        rfl

theorem nextBegins {before rest : List Char} {block : Block} {next : Scanner}
    (found : (startingAt g (before ++ rest) (Text.size before)).nextBlock = (some block,next)) :
    ∃ passed rest', before ++ rest = passed ++ rest' ∧ block.span.stop.offset = Text.size passed ∧
      next = startingAt g (passed ++ rest') (Text.size passed) := by
  rw [startingBetween, nextBlock] at found
  dsimp only at found
  split at found
  · cases found
  · rename_i after opening search
    obtain ⟨same,rfl⟩ := Prod.mk.inj found
    obtain rfl := Option.some.inj same
    obtain ⟨_,gap,tag,_,whole,starts,stops⟩ := Cursor.nextOpeningExtent search
    obtain ⟨_,inner,ahead,ends⟩ :=
      Block.ofOpeningExtent g (.ofText (before ++ rest)) opening
    have split : before ++ rest = (before ++ (gap ++ (tag ++ inner))) ++
        (Block.ofOpening g (.ofText (before ++ rest)) opening).2.rest :=
      calc before ++ rest = before ++ (gap ++ (tag ++ opening.next.rest)) :=
            congrArg (before ++ ·) whole
        _ = _ := by rw [ahead]; simp
    have stop : (Block.ofOpening g (.ofText (before ++ rest)) opening).2.offset =
        Text.size (before ++ (gap ++ (tag ++ inner))) := by
      rw [ends, stops, starts]
      simp [Nat.add_assoc]
    refine ⟨_,_,split,stop,?_⟩
    rw [startingBetween, ← split, ← stop]
    rfl

theorem laterBlocks {earlier later : List Block} {block : Block} {before rest : List Char}
    (found : (startingAt g (before ++ rest) (Text.size before)).blocks = earlier ++ block :: later) :
    (startingAt g (before ++ rest) block.span.stop.offset).blocks = later := by
  induction earlier generalizing before rest with
  | nil =>
      rw [blocksNext] at found
      split at found
      · cases found
      · rename_i first next search
        obtain ⟨rfl,rfl⟩ := List.cons.inj found
        obtain ⟨passed,rest',whole,stop,begins⟩ := nextBegins search
        rw [begins, whole, stop]
  | cons first earlier ih =>
      rw [blocksNext] at found
      split at found
      · cases found
      · rename_i first' next search
        obtain ⟨passed,rest',whole,_,begins⟩ := nextBegins search
        have others := (List.cons.inj found).2
        rw [begins] at others
        rw [whole]
        exact ih others

/- Scanning depends only on the text ahead: behind `k` bytes the blocks of the rest are found, with
every offset increased by `k`, and behind a block the blocks after it. -/
theorem scanAhead (g : CommentGrammar) (text : List Char) :
    (∀ before rest, text = before ++ rest →
      (startingAt g text (Text.size before)).blocks =
        (Block.findAll g rest).map (Block.behind (.ofText text) (Text.size before))) ∧
    ∀ earlier block later, Block.findAll g text = earlier ++ block :: later →
      (startingAt g text block.span.stop.offset).blocks = later := by
  constructor
  · rintro before rest rfl
    have whole : Block.findAll g rest = Block.fromCursor g (.ofText rest) 0 rest :=
      startingBlocks g [] rest
    rw [startingBlocks, whole, ← Block.fromCursorBehind, Nat.zero_add]
  · intro earlier block later found
    exact @laterBlocks g earlier later block [] text found

def mixedText : List Char := "é/*MD+:a x*/b/*MD+FIN:a*/\n/*MD+:META*//*MD+:c*/d".toList

theorem mixedAhead :
    mixedText = "é/*MD+:a x*/b".toList ++ "/*MD+FIN:a*/\n/*MD+:META*//*MD+:c*/d".toList ∧
    (startingAt .c mixedText 14).blocks =
      (Block.findAll .c "/*MD+FIN:a*/\n/*MD+:META*//*MD+:c*/d".toList).map
        (Block.behind (.ofText mixedText) 14) ∧
    ∃ block later, Block.findAll .c mixedText = [] ++ block :: later ∧
      block.span.stop.offset = 26 ∧ later.length = 2 ∧
      (startingAt .c mixedText 26).blocks = later := by
  have split : mixedText =
      "é/*MD+:a x*/b".toList ++ "/*MD+FIN:a*/\n/*MD+:META*//*MD+:c*/d".toList := by decide
  have stops : (Block.findAll .c mixedText).map (·.span.stop.offset) = [26,39,49] := by
    decide +kernel
  refine ⟨split,(scanAhead .c mixedText).1 _ _ split,?_⟩
  cases whole : Block.findAll .c mixedText with
  | nil =>
      rw [whole] at stops
      cases stops
  | cons block later =>
      rw [whole, List.map_cons] at stops
      obtain ⟨stop,others⟩ := List.cons.inj stops
      refine ⟨block,later,rfl,stop,by simpa using congrArg List.length others,?_⟩
      rw [← stop]
      exact (scanAhead .c mixedText).2 [] block later whole

end Scanner

end DocBlocks
