import DocBlocks.Proofs.Block.Extent

/-! Runs of a scanner: its two calls in any order, in every grammar. One call moves the scanner on to
the end of what it found; a scanner that found nothing is spent. Along a run the results stand behind
one another, between characters of the text, and there are no more of them than the text has bytes. -/
namespace DocBlocks.Scanner
open Text (Boundary)

inductive Call where
  | opening | block
  deriving DecidableEq, Repr

inductive Result where
  | opening (found : Opening)
  | block (found : Block)

namespace Result

def extent : Result → Position
  | opening found => found.position
  | block found => found.span

def places : Result → List Position
  | opening found => [found.position]
  | block found => found.opening :: found.span :: found.closing.toList

end Result

def call (s : Scanner) : Call → Option Result × Scanner
  | .opening => (s.nextOpening.1.map .opening,s.nextOpening.2)
  | .block => (s.nextBlock.1.map .block,s.nextBlock.2)

structure Step where
  before : Nat
  result : Option Result
  after : Nat

def run (s : Scanner) : List Call → List Step
  | [] => []
  | c :: calls => ⟨s.offset,(s.call c).1,(s.call c).2.offset⟩ :: run (s.call c).2 calls

end DocBlocks.Scanner

namespace DocBlocks

structure Block.Ordered (text : List Char) (b : Block) : Prop where
  start : b.span.start = b.opening.start
  opening : b.opening.start.offset < b.opening.stop.offset
  closed : ∀ closing, b.closing = some closing →
    b.opening.stop.offset ≤ closing.start.offset ∧
      closing.start.offset < closing.stop.offset ∧ closing.stop = b.span.stop
  reserved : b.closing = none → b.isReserved = true → b.span = b.opening
  unclosed : b.closing = none → b.isReserved = false → b.span.stop.offset = Text.size text

namespace Scanner
open Text (Boundary)

structure Orderly (text : List Char) (steps : List Step) : Prop where
  onward : ∀ step ∈ steps, step.before ≤ step.after ∧ step.after ≤ Text.size text
  chained : steps.Pairwise fun a b => a.after ≤ b.before
  placed : ∀ step ∈ steps, ∀ result, step.result = some result →
    step.before ≤ result.extent.start.offset ∧
      result.extent.start.offset < result.extent.stop.offset ∧
      result.extent.stop.offset = step.after
  spent : steps.Pairwise fun a b => a.result = none → b.result = none
  between : ∀ step ∈ steps, ∀ result, step.result = some result → ∀ place ∈ result.places,
    Boundary text place.start.offset ∧ Boundary text place.stop.offset
  blocks : ∀ step ∈ steps, ∀ block, step.result = some (.block block) → block.Ordered text
  apart : steps.Pairwise fun a b => ∀ x y, a.result = some x → b.result = some y →
    x.extent.stop.offset ≤ y.extent.start.offset
  last : steps.Pairwise fun a b => ∀ block, a.result = some (.block block) →
    block.closing = none → block.isReserved = false → b.result = none

structure Within (text : List Char) (s : Scanner) : Prop where
  inside : s.offset ≤ Text.size text
  stands : ∀ rest, s.rest = some rest → ∃ before, text = before ++ rest ∧ s.offset = Text.size before

def Spent (s : Scanner) : Prop :=
  ∀ rest, s.rest = some rest → (Cursor.nextOpening s.grammar s.offset rest).2 = none

structure Moves (text : List Char) (s : Scanner) (result : Option Result) (next : Scanner) : Prop where
  within : next.Within text
  onward : s.offset ≤ next.offset
  missed : result = none → next.Spent
  placed : ∀ found, result = some found → s.offset ≤ found.extent.start.offset ∧
    found.extent.start.offset < found.extent.stop.offset ∧ found.extent.stop.offset = next.offset
  between : ∀ found, result = some found → ∀ place ∈ found.places,
    Boundary text place.start.offset ∧ Boundary text place.stop.offset
  blocks : ∀ block, result = some (.block block) → block.Ordered text
  last : ∀ block, result = some (.block block) → block.closing = none →
    block.isReserved = false → next.Spent

variable {text : List Char} {s : Scanner}

theorem startWithin (g : CommentGrammar) (text : List Char) (offset : Nat) :
    (startingAt g text offset).Within text :=
  ⟨Nat.min_le_right _ _,fun _ dropped => Text.dropBytesSome.mp dropped⟩

theorem startInside {g : CommentGrammar} {offset : Nat} (short : offset < Text.size text)
    (inside : ¬ Boundary text offset) : (startingAt g text offset).Spent := by
  have same : min offset (Text.size text) = offset := Nat.min_eq_left (Nat.le_of_lt short)
  intro rest dropped
  change Text.dropBytes? (min offset (Text.size text)) text = some rest at dropped
  rw [same, Text.dropBytesNone.mpr inside] at dropped
  cases dropped

theorem moveWithin {c : Cursor} (before : List Char) (whole : text = before ++ c.rest)
    (offset : c.offset = Text.size before) : (s.moveTo c).Within text := by
  refine ⟨?_,?_⟩
  · rw [whole, Text.size_append]
    change c.offset ≤ _
    omega
  · intro rest same
    cases same
    exact ⟨before,whole,offset⟩

theorem spentEnd (s : Scanner) (offset : Nat) : (s.moveTo ⟨offset,[]⟩).Spent := by
  intro rest same
  cases same
  rw [Cursor.nextOpening]
  split
  · rfl
  · rename_i f found
    have whole := Delimiter.eq_append_of_find? found
    simp [Delimiter.chars] at whole

theorem emptyMoves {next : Scanner} (within : next.Within text) (onward : s.offset ≤ next.offset)
    (spent : next.Spent) : Moves text s none next :=
  ⟨within,onward,fun _ => spent,nofun,nofun,nofun,nofun⟩

theorem missedMoves {rest : List Char} {after : Cursor} (within : s.Within text)
    (stands : s.rest = some rest) (search : Cursor.nextOpening s.grammar s.offset rest = (after,none)) :
    Moves text s none (s.moveTo after) := by
  obtain ⟨before,whole,offset⟩ := within.stands rest stands
  obtain ⟨⟨passed,rfl,stops⟩,again⟩ := Cursor.nextOpeningMissed search
  refine emptyMoves (moveWithin (before ++ passed) ?_ ?_) ?_ ?_
  · rw [whole, List.append_assoc]
  · rw [stops, offset, Text.size_append]
  · change s.offset ≤ after.offset
    omega
  · intro rest same
    cases same
    exact congrArg Prod.snd again

theorem boundaryAt {offset : Nat} (before rest : List Char) (whole : text = before ++ rest)
    (same : offset = Text.size before) : Boundary text offset := ⟨before,rest,whole,same⟩

theorem openingMoves {rest : List Char} {after : Cursor} {found : Cursor.OpeningMatch}
    (within : s.Within text) (stands : s.rest = some rest)
    (search : Cursor.nextOpening s.grammar s.offset rest = (after,some found)) :
    Moves text s (some (.opening (.ofMatch s.lines found))) (s.moveTo found.next) := by
  obtain ⟨before,whole,offset⟩ := within.stands rest stands
  obtain ⟨_,gap,tag,filled,rfl,starts,stops⟩ := Cursor.nextOpeningExtent search
  have positive := Text.sizeFilled filled
  have start : Boundary text found.start :=
    boundaryAt (before ++ gap) (tag ++ found.next.rest) (by rw [whole]; simp)
      (by rw [starts, offset]; simp)
  have stop : text = (before ++ (gap ++ tag)) ++ found.next.rest := by rw [whole]; simp
  have stop' : found.next.offset = Text.size (before ++ (gap ++ tag)) := by
    rw [stops, starts, offset]
    simp [Nat.add_assoc]
  refine ⟨moveWithin _ stop stop',?_,?_,?_,?_,?_,?_⟩
  · change s.offset ≤ found.next.offset
    omega
  · exact nofun
  · intro result same
    cases same
    change s.offset ≤ found.start ∧ found.start < found.next.offset ∧ _
    exact ⟨by omega,by omega,rfl⟩
  · intro result same place member
    cases same
    cases List.mem_singleton.mp member
    exact ⟨start,boundaryAt _ _ stop stop'⟩
  · exact nofun
  · exact nofun

variable {found : Cursor.OpeningMatch} {before : List Char}

theorem blockOrdered (g : CommentGrammar) (lines : LineTable) (forward : found.start < found.next.offset)
    (whole : text = before ++ found.next.rest) (offset : found.next.offset = Text.size before) :
    (Block.ofOpening g lines found).1.Ordered text := by
  refine ⟨rfl,forward,?_,?_,?_⟩
  · intro closing closed
    obtain ⟨body,foot,filled,_,rfl,stops⟩ := Block.closedExtent closed
    have positive := Text.sizeFilled filled
    change found.next.offset ≤ found.next.offset + Text.size body ∧
      found.next.offset + Text.size body < (Block.ofOpening g lines found).2.offset ∧ _
    exact ⟨by omega,by omega,rfl⟩
  · intro open' kept
    have next := Block.unclosedExtent open'
    rw [kept, if_pos rfl] at next
    change lines.position found.start (Block.ofOpening g lines found).2.offset = _
    rw [next]
    rfl
  · intro open' free
    have next := Block.unclosedExtent open'
    rw [free, if_neg (by decide)] at next
    change (Block.ofOpening g lines found).2.offset = _
    rw [next, whole, Text.size_append, ← offset]
    rfl

theorem blockBetween (g : CommentGrammar) (lines : LineTable) (start : Boundary text found.start)
    (whole : text = before ++ found.next.rest) (offset : found.next.offset = Text.size before)
    {place : Position} (member : place ∈ (Result.block (Block.ofOpening g lines found).1).places) :
    Boundary text place.start.offset ∧ Boundary text place.stop.offset := by
  obtain ⟨_,inner,others,stops⟩ := Block.ofOpeningExtent g lines found
  have stop : Boundary text (Block.ofOpening g lines found).2.offset :=
    boundaryAt (before ++ inner) _ (by rw [whole, others, List.append_assoc])
      (by rw [stops, offset, Text.size_append])
  rcases List.mem_cons.mp member with rfl | member
  · exact ⟨start,boundaryAt before _ whole offset⟩
  rcases List.mem_cons.mp member with rfl | member
  · exact ⟨start,stop⟩
  obtain ⟨body,foot,_,rest,rfl,_⟩ := Block.closedExtent (Option.mem_toList.mp member)
  exact ⟨boundaryAt (before ++ body) _ (by rw [whole, rest, List.append_assoc])
    (by rw [Text.size_append, ← offset]; rfl),stop⟩

theorem blockMoves {rest : List Char} {after : Cursor} (within : s.Within text)
    (stands : s.rest = some rest)
    (search : Cursor.nextOpening s.grammar s.offset rest = (after,some found)) :
    Moves text s (some (.block (Block.ofOpening s.grammar s.lines found).1))
      (s.moveTo (Block.ofOpening s.grammar s.lines found).2) := by
  have opens := openingMoves within stands search
  obtain ⟨before,whole,offset⟩ := opens.within.stands _ rfl
  obtain ⟨first,forward,_⟩ := opens.placed _ rfl
  have start := (opens.between _ rfl _ (List.mem_singleton_self _)).1
  obtain ⟨_,inner,others,stops⟩ := Block.ofOpeningExtent s.grammar s.lines found
  change s.offset ≤ found.start at first
  change found.start < found.next.offset at forward
  refine ⟨moveWithin (before ++ inner) ?_ ?_,?_,?_,?_,?_,?_,?_⟩
  · rw [whole, others, List.append_assoc]
  · rw [stops, Text.size_append, ← offset]
    rfl
  · change s.offset ≤ (Block.ofOpening s.grammar s.lines found).2.offset
    omega
  · exact nofun
  · intro result same
    cases same
    change s.offset ≤ found.start ∧
      found.start < (Block.ofOpening s.grammar s.lines found).2.offset ∧ _
    exact ⟨first,by omega,rfl⟩
  · intro result same place member
    cases same
    exact blockBetween _ _ start whole offset member
  · intro block same
    cases same
    exact blockOrdered _ _ forward whole offset
  · intro block same open' free
    cases same
    rw [Block.unclosedExtent open', free, if_neg (by decide)]
    exact spentEnd s _

theorem callMoves (within : s.Within text) (c : Call) :
    Moves text s (s.call c).1 (s.call c).2 := by
  cases stands : s.rest with
  | none =>
      have spent : s.Spent := by
        intro rest same
        rw [stands] at same
        cases same
      have idle : Moves text s none s := emptyMoves within (Nat.le_refl _) spent
      cases c <;> simpa [call, nextOpening, nextBlock, stands] using idle
  | some rest =>
      cases search : Cursor.nextOpening s.grammar s.offset rest with
      | mk cursor outcome =>
          cases outcome with
          | none =>
              have missed := missedMoves within stands search
              cases c <;> simpa [call, nextOpening, nextBlock, stands, search] using missed
          | some found =>
              obtain ⟨rfl,_⟩ := Cursor.nextOpeningExtent search
              cases c with
              | opening =>
                  simpa [call, nextOpening, stands, search] using
                    openingMoves within stands search
              | block =>
                  simpa [call, nextBlock, stands, search] using blockMoves within stands search

theorem callSpent (spent : s.Spent) (c : Call) : (s.call c).1 = none ∧ (s.call c).2.Spent := by
  cases rest : s.rest with
  | none => cases c <;> simpa [call, nextOpening, nextBlock, rest] using spent
  | some text =>
      have missed := spent text rest
      cases search : Cursor.nextOpening s.grammar s.offset text with
      | mk cursor found =>
          rw [search] at missed
          cases missed
          have again : (s.moveTo cursor).Spent := by
            intro left same
            cases same
            exact congrArg Prod.snd (Cursor.nextOpeningMissed search).2
          cases c <;> simpa [call, nextOpening, nextBlock, rest, search] using again

theorem runSpent (spent : s.Spent) (calls : List Call) : ∀ step ∈ s.run calls, step.result = none := by
  induction calls generalizing s with
  | nil => intro step member; cases member
  | cons c calls ih =>
      obtain ⟨none,later⟩ := callSpent spent c
      intro step member
      rcases List.mem_cons.mp member with rfl | member
      · exact none
      · exact ih later step member

theorem runFrom (within : s.Within text) (calls : List Call) :
    ∀ step ∈ s.run calls, s.offset ≤ step.before := by
  induction calls generalizing s with
  | nil => intro step member; cases member
  | cons c calls ih =>
      have moves := callMoves within c
      intro step member
      rcases List.mem_cons.mp member with rfl | member
      · exact Nat.le_refl _
      · exact Nat.le_trans moves.onward (ih moves.within step member)

theorem runOnward (within : s.Within text) (calls : List Call) :
    ∀ step ∈ s.run calls, step.before ≤ step.after ∧ step.after ≤ Text.size text := by
  induction calls generalizing s with
  | nil => intro step member; cases member
  | cons c calls ih =>
      have moves := callMoves within c
      intro step member
      rcases List.mem_cons.mp member with rfl | member
      · exact ⟨moves.onward,moves.within.inside⟩
      · exact ih moves.within step member

theorem runResults {P : Nat → Result → Nat → Prop}
    (each : ∀ s next found, Moves text s (some found) next → P s.offset found next.offset)
    (within : s.Within text) (calls : List Call) :
    ∀ step ∈ s.run calls, ∀ found, step.result = some found → P step.before found step.after := by
  induction calls generalizing s with
  | nil => intro step member; cases member
  | cons c calls ih =>
      have moves := callMoves within c
      intro step member
      rcases List.mem_cons.mp member with rfl | member
      · intro found same
        rw [show (s.call c).1 = some found from same] at moves
        exact each _ _ found moves
      · exact ih moves.within step member

theorem runLast {P : Option Result → Prop}
    (each : ∀ s next result, Moves text s result next → P result → next.Spent)
    (within : s.Within text) (calls : List Call) :
    (s.run calls).Pairwise fun a b => P a.result → b.result = none := by
  induction calls generalizing s with
  | nil => exact List.Pairwise.nil
  | cons c calls ih =>
      have moves := callMoves within c
      refine List.pairwise_cons.mpr ⟨?_,ih moves.within⟩
      intro step member holds
      exact runSpent (each _ _ _ moves holds) calls step member

theorem runChained (within : s.Within text) (calls : List Call) :
    (s.run calls).Pairwise fun a b => a.after ≤ b.before := by
  induction calls generalizing s with
  | nil => exact List.Pairwise.nil
  | cons c calls ih =>
      have moves := callMoves within c
      exact List.pairwise_cons.mpr ⟨runFrom moves.within calls,ih moves.within⟩

theorem runOrderly (within : s.Within text) (calls : List Call) : Orderly text (s.run calls) := by
  have chained := runChained within calls
  have placed := runResults (P := fun before found after => before ≤ found.extent.start.offset ∧
    found.extent.start.offset < found.extent.stop.offset ∧ found.extent.stop.offset = after)
    (fun _ _ found moves => moves.placed found rfl) within calls
  refine ⟨runOnward within calls,chained,placed,?_,?_,?_,?_,?_⟩
  · exact runLast (fun _ _ _ moves none => moves.missed none) within calls
  · exact runResults (P := fun _ found _ => ∀ place ∈ found.places,
      Boundary text place.start.offset ∧ Boundary text place.stop.offset)
      (fun _ _ found moves => moves.between found rfl) within calls
  · intro step member block same
    refine runResults (P := fun _ found _ => ∀ block, found = .block block → block.Ordered text)
      ?_ within calls step member _ same block rfl
    intro _ _ found moves block same
    exact moves.blocks block (congrArg some same)
  · refine chained.imp_of_mem ?_
    intro a b first second onward x y left right
    have before := placed a first x left
    have after := placed b second y right
    omega
  · have last := runLast (P := fun result => ∃ block, result = some (.block block) ∧
      block.closing = none ∧ block.isReserved = false)
      (fun _ _ _ moves ⟨block,same,open',free⟩ => moves.last block same open' free) within calls
    exact last.imp fun spent block same open' free => spent ⟨block,same,open',free⟩

theorem runBounded (within : s.Within text) (calls : List Call) :
    ((s.run calls).filterMap Step.result).length ≤ Text.size text - s.offset := by
  -- a call that gives something moves the scanner on by at least one byte
  induction calls generalizing s with
  | nil => exact Nat.zero_le _
  | cons c calls ih =>
      have moves := callMoves within c
      have later := ih moves.within
      have inside := moves.within.inside
      have onward := moves.onward
      rw [run]
      cases result : (s.call c).1 with
      | none =>
          rw [List.filterMap_cons]
          dsimp only
          omega
      | some found =>
          obtain ⟨first,forward,stop⟩ := moves.placed found result
          rw [List.filterMap_cons]
          dsimp only
          rw [List.length_cons]
          omega

/- The offset of a scanner never goes back, results stand behind one another and between characters of
the text, and every run of calls comes to an end, after which nothing is found. -/
theorem runsInOrder (g : CommentGrammar) (text : List Char) (start : Nat) (calls : List Call) :
    Orderly text ((startingAt g text start).run calls) ∧
      (((startingAt g text start).run calls).filterMap Step.result).length ≤
        Text.size text - start ∧
      (start < Text.size text → ¬ Boundary text start →
        ∀ step ∈ (startingAt g text start).run calls, step.result = none) := by
  have within := startWithin g text start
  refine ⟨runOrderly within calls,?_,?_⟩
  · have bounded := runBounded within calls
    change _ ≤ Text.size text - min start (Text.size text) at bounded
    omega
  · intro short inside
    exact runSpent (startInside short inside) calls

end Scanner

end DocBlocks
