import DocBlocks.Proofs.Block.Locality

/-! A markdown text as the scanner cuts it: pieces that are blocks, the gaps in front of them and the
rest of the text. -/
namespace DocBlocks.Tag
open CommentGrammar (markdown)
open Delimiter (FirstAt Nowhere)

structure Piece where
  command : List Char
  arguments : List Char
  text : List Char
  closed : Bool

def isReserved (command : List Char) : Bool := isReservedCommand (String.ofList command)

inductive Trace : List Char → List (List Char × Piece) → List Char → Prop where
  | done {text : List Char} (none : Nowhere opener (opening? markdown) text) : Trace text [] text
  | closed {gap head command arguments body foot rest last : List Char}
      {pieces : List (List Char × Piece)}
      (opens : FirstAt opener (opening? markdown)
        (gap ++ (opener.chars ++ (head ++ (body ++ (opener.chars ++ (foot ++ rest)))))) gap
        (head ++ (body ++ (opener.chars ++ (foot ++ rest))))
        ⟨command,arguments,Text.size head,body ++ (opener.chars ++ (foot ++ rest))⟩)
      (closes : FirstAt opener (closing? markdown command) (body ++ (opener.chars ++ (foot ++ rest)))
        body (foot ++ rest) (Text.size foot,rest))
      (later : Trace rest pieces last) :
      Trace (gap ++ (opener.chars ++ (head ++ (body ++ (opener.chars ++ (foot ++ rest))))))
        ((gap,⟨command,arguments,opener.chars ++ (head ++ (body ++ (opener.chars ++ foot))),true⟩) ::
          pieces) last
  | reserved {gap head command arguments rest last : List Char}
      {pieces : List (List Char × Piece)}
      (opens : FirstAt opener (opening? markdown) (gap ++ (opener.chars ++ (head ++ rest))) gap
        (head ++ rest) ⟨command,arguments,Text.size head,rest⟩)
      (none : Nowhere opener (closing? markdown command) rest)
      (kept : isReserved command = true) (later : Trace rest pieces last) :
      Trace (gap ++ (opener.chars ++ (head ++ rest)))
        ((gap,⟨command,arguments,opener.chars ++ head,false⟩) :: pieces) last
  | unclosed {gap head command arguments rest : List Char}
      (opens : FirstAt opener (opening? markdown) (gap ++ (opener.chars ++ (head ++ rest))) gap
        (head ++ rest) ⟨command,arguments,Text.size head,rest⟩)
      (none : Nowhere opener (closing? markdown command) rest)
      (free : isReserved command = false) :
      Trace (gap ++ (opener.chars ++ (head ++ rest)))
        [(gap,⟨command,arguments,opener.chars ++ (head ++ rest),false⟩)] []

inductive Placed : Nat → List (List Char × Piece) → List Block → Prop where
  | nil (offset : Nat) : Placed offset [] []
  | cons {offset : Nat} {gap : List Char} {piece : Piece} {block : Block}
      {pieces : List (List Char × Piece)} {blocks : List Block}
      (command : block.command = String.ofList piece.command)
      (arguments : block.arguments = String.ofList piece.arguments)
      (closed : block.closing.isSome = piece.closed)
      (start : block.span.start.offset = offset + Text.size gap)
      (stop : block.span.stop.offset = offset + Text.size gap + Text.size piece.text)
      (others : Placed (offset + Text.size gap + Text.size piece.text) pieces blocks) :
      Placed offset ((gap,piece) :: pieces) (block :: blocks)

def assembled (write : Piece → List Char) (pieces : List (List Char × Piece)) (last : List Char) :
    List Char :=
  (pieces.flatMap fun part => part.1 ++ write part.2) ++ last

theorem traceWhole {text last : List Char} {pieces : List (List Char × Piece)}
    (trace : Trace text pieces last) : assembled Piece.text pieces last = text := by
  induction trace with
  | done => rfl
  | closed _ _ _ ih | reserved _ _ _ _ ih =>
      rw [← ih]
      simp [assembled]
  | unclosed => simp [assembled]

theorem headOf {text gap inner : List Char} {tag : Opening}
    (opens : FirstAt opener (opening? markdown) text gap inner tag) :
    ∃ head, inner = head ++ tag.rest ∧ tag.size = Text.size head := by
  obtain ⟨blanks,_,whole,sized⟩ := openingParts opens.accepted
  exact ⟨_,whole,sized⟩

theorem commandDash {inner : List Char} {tag : Opening}
    (read : opening? markdown inner = some tag) : '-' ∉ tag.command := by
  obtain ⟨blanks,open',_,_⟩ := openingParts read
  intro member
  have := open'.chars _ member
  cases this

theorem traceExists (text : List Char) : ∃ pieces last, Trace text pieces last := by
  -- by length, as every tag that is found leaves less text behind it
  induction length : text.length using Nat.strongRecOn generalizing text with
  | ind n ih =>
      rcases Cursor.nextOpeningFirst CommentGrammar.singleMarkdown 0 text with
        ⟨none,_⟩ | ⟨gap,inner,⟨command,arguments,size,rest⟩,opens,_⟩
      · exact ⟨[],text,.done none⟩
      obtain ⟨head,rfl,sized⟩ := headOf opens
      dsimp only at sized
      subst sized
      obtain rfl := opens.whole
      have less : rest.length < n := by
        rw [← length]
        simp [Delimiter.chars]
        omega
      rcases Cursor.closingFirst CommentGrammar.singleMarkdown command 0 rest with
        ⟨none,_⟩ | ⟨body,inside,⟨size,after⟩,closes,_⟩
      · cases kept : isReserved command with
        | true =>
            obtain ⟨pieces,last,later⟩ := ih rest.length less rest rfl
            exact ⟨_,_,.reserved opens none kept later⟩
        | false => exact ⟨_,_,.unclosed opens none kept⟩
      · obtain ⟨foot,rfl,rfl,_⟩ := closingMoved (commandDash opens.accepted) closes
        obtain rfl := closes.whole
        obtain ⟨pieces,last,later⟩ := ih after.length (by simp at less; omega) after rfl
        exact ⟨_,_,.closed opens closes later⟩

theorem fromCursorAt {lines : LineTable} {offset : Nat} {text gap inner : List Char} {tag : Opening}
    (opens : FirstAt opener (opening? markdown) text gap inner tag) :
    Block.fromCursor markdown lines offset text =
      (Block.ofOpening markdown lines (Cursor.afterGap markdown offset gap tag)).1 ::
        Block.fromCursor markdown lines
          (Block.ofOpening markdown lines (Cursor.afterGap markdown offset gap tag)).2.offset
          (Block.ofOpening markdown lines (Cursor.afterGap markdown offset gap tag)).2.rest := by
  have outcome : Cursor.nextOpening markdown offset text = _ :=
    Cursor.nextOpeningAt CommentGrammar.singleMarkdown opens
  rw [Block.fromCursor]
  split
  · rename_i found
    rw [outcome] at found
    cases found
  · rename_i found
    rw [outcome] at found
    cases found
    rfl

theorem ofOpeningClosed {lines : LineTable} {offset : Nat} {gap body inner : List Char}
    {tag : Opening} {closing : Nat × List Char}
    (closes : FirstAt opener (closing? markdown tag.command) tag.rest body inner closing) :
    let found := Cursor.afterGap markdown offset gap tag
    let after := Cursor.closedAfter markdown found.next.offset body closing
    Block.ofOpening markdown lines found =
      (⟨String.ofList tag.command,String.ofList tag.arguments,
        lines.position found.start found.next.offset,
        some (lines.position after.1 after.2.offset),
        lines.position found.start after.2.offset⟩,after.2) := by
  have outcome : Cursor.closing? markdown tag.command
      (Cursor.afterGap markdown offset gap tag).next.offset tag.rest = _ :=
    Cursor.closingAt CommentGrammar.singleMarkdown closes
  unfold Block.ofOpening Opening.ofMatch
  dsimp only [Cursor.afterGap] at outcome ⊢
  rw [outcome]
  rfl

theorem ofOpeningUnclosed {lines : LineTable} {offset : Nat} {gap : List Char} {tag : Opening}
    (none : Nowhere opener (closing? markdown tag.command) tag.rest) :
    let found := Cursor.afterGap markdown offset gap tag
    let next := if isReserved tag.command then found.next else found.next.atEnd
    Block.ofOpening markdown lines found =
      (⟨String.ofList tag.command,String.ofList tag.arguments,
        lines.position found.start found.next.offset,.none,
        lines.position found.start next.offset⟩,next) := by
  have outcome : Cursor.closing? markdown tag.command
      (Cursor.afterGap markdown offset gap tag).next.offset tag.rest = .none :=
    Cursor.closingNowhere CommentGrammar.singleMarkdown none
  unfold Block.ofOpening Opening.ofMatch
  dsimp only [Cursor.afterGap] at outcome ⊢
  rw [outcome]
  rfl

theorem tracePlaced {text last : List Char} {pieces : List (List Char × Piece)}
    (trace : Trace text pieces last) (lines : LineTable) (offset : Nat) :
    Placed offset pieces (Block.fromCursor markdown lines offset text) := by
  -- the scanner goes on where a piece ends, so the offset moves along the trace
  induction trace generalizing offset with
  | @done text none =>
      have outcome : (Cursor.nextOpening markdown offset text).2 = .none :=
        Cursor.nextOpeningNowhere CommentGrammar.singleMarkdown none
      rw [Block.fromCursor]
      split
      · exact .nil offset
      · rename_i found
        rw [found] at outcome
        cases outcome
  | @closed gap head command arguments body foot rest last pieces opens closes later ih =>
      have place : offset + Text.size gap +
          Text.size (opener.chars ++ (head ++ (body ++ (opener.chars ++ foot)))) =
          offset + Text.size gap + opener.size + Text.size head + Text.size body + opener.size +
            Text.size foot := by
        simp [Delimiter.size, Nat.add_assoc]
      rw [fromCursorAt opens, ofOpeningClosed closes]
      refine .cons rfl rfl rfl rfl place.symm ?_
      rw [place]
      exact ih _
  | @reserved gap head command arguments rest last pieces opens none kept later ih =>
      have place : offset + Text.size gap + Text.size (opener.chars ++ head) =
          offset + Text.size gap + opener.size + Text.size head := by
        simp [Delimiter.size, Nat.add_assoc]
      rw [fromCursorAt opens, ofOpeningUnclosed none]
      simp only [kept, if_true]
      refine .cons rfl rfl rfl rfl place.symm ?_
      rw [place]
      exact ih _
  | @unclosed gap head command arguments rest opens none free =>
      have place : offset + Text.size gap + Text.size (opener.chars ++ (head ++ rest)) =
          offset + Text.size gap + opener.size + Text.size head + Text.size rest := by
        simp [Delimiter.size, Nat.add_assoc]
      have noneLeft (offset : Nat) : Block.fromCursor markdown lines offset [] = [] := by
        rw [Block.fromCursor]
        split
        · rfl
        · rename_i found
          rw [Cursor.nextOpening] at found
          cases found
      rw [fromCursorAt opens, ofOpeningUnclosed none]
      simp only [free, Bool.false_eq_true, if_false]
      refine .cons rfl rfl rfl rfl place.symm ?_
      rw [show (Cursor.atEnd _).rest = [] from rfl, noneLeft]
      exact .nil _

end DocBlocks.Tag
