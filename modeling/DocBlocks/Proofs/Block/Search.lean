import DocBlocks.Proofs.Block.Extent
import DocBlocks.Proofs.Block.Occurrence

/-! The searches of the scanner find the first opening delimiter that begins a tag, in a grammar with
one opening delimiter. -/
namespace DocBlocks

structure CommentGrammar.Single (g : CommentGrammar) : Prop where
  alone : g.otherOpeners = []
  sharp : g.opener.Sharp

theorem CommentGrammar.Single.openers {g : CommentGrammar} (single : g.Single) :
    g.openers = [g.opener] := by
  rw [CommentGrammar.openers, single.alone]

theorem CommentGrammar.singleMarkdown : CommentGrammar.markdown.Single :=
  ⟨rfl,by unfold Delimiter.Sharp; decide⟩

theorem CommentGrammar.singleC : CommentGrammar.c.Single :=
  ⟨rfl,by unfold Delimiter.Sharp; decide⟩

/- A search that goes from one delimiter to the next, as long as what follows is not accepted, ends at the
first place where it is. Both searches of the scanner are of this kind. -/
theorem Delimiter.searchFirst {α β : Type} {d : Delimiter} (sharp : d.Sharp)
    (accept : List Char → Option β) (search : Nat → List Char → α) (Missed : α → Prop)
    (hit : Nat → β → α)
    (stop : ∀ offset text, find? [d] text = none → Missed (search offset text))
    (step : ∀ offset text f, find? [d] text = some f → search offset text =
      match accept f.rest with
      | some result => hit (offset + Text.size f.before) result
      | none => search (offset + Text.size f.before + d.size) f.rest)
    (offset : Nat) (text : List Char) :
    (Nowhere d accept text ∧ Missed (search offset text)) ∨
      ∃ gap inner result, FirstAt d accept text gap inner result ∧
        search offset text = hit (offset + Text.size gap) result := by
  induction length : text.length using Nat.strongRecOn generalizing offset text with
  | ind n ih =>
      cases found : find? [d] text with
      | none => exact .inl ⟨nowhereFree (findNone.mp found),stop offset text found⟩
      | some f =>
          rw [step offset text f found]
          cases read : accept f.rest with
          | some result => exact .inr ⟨f.before,f.rest,result,firstHere found read,rfl⟩
          | none =>
              have less := length_rest_of_find? found
              rcases ih f.rest.length (length ▸ less) (offset + Text.size f.before + d.size) f.rest rfl
                with ⟨later,missed⟩ | ⟨gap,inner,result,later,outcome⟩
              · exact .inl ⟨nowhereLater sharp found read later,missed⟩
              · refine .inr ⟨f.before ++ (d.chars ++ gap),inner,result,
                  firstLater sharp found read later,outcome.trans ?_⟩
                simp only [Text.size_append, Nat.add_assoc, size]

namespace Cursor
open Delimiter (FirstAt Nowhere)

variable {g : CommentGrammar} (single : g.Single)

def afterGap (g : CommentGrammar) (offset : Nat) (gap : List Char) (tag : Tag.Opening) :
    OpeningMatch :=
  { command := tag.command
    arguments := tag.arguments
    start := offset + Text.size gap
    next := ⟨offset + Text.size gap + g.opener.size + tag.size,tag.rest⟩ }

include single in
theorem nextOpeningFirst (offset : Nat) (text : List Char) :
    (Nowhere g.opener (Tag.opening? g) text ∧ (nextOpening g offset text).2 = none) ∨
    ∃ gap inner tag, FirstAt g.opener (Tag.opening? g) text gap inner tag ∧
      nextOpening g offset text =
        ((afterGap g offset gap tag).next,some (afterGap g offset gap tag)) := by
  have alone := single.openers
  refine Delimiter.searchFirst single.sharp (Tag.opening? g) (nextOpening g) (·.2 = none)
    (fun start tag => ((afterGap g start [] tag).next,some (afterGap g start [] tag)))
    (fun offset text missed => ?_) (fun offset text f found => ?_) offset text
  · rw [nextOpeningStop (alone ▸ missed)]
  · rw [nextOpeningStep (alone ▸ found), (Delimiter.findSome.mp found).1]
    cases Tag.opening? g f.rest <;> rfl

include single in
theorem nextOpeningNowhere {offset : Nat} {text : List Char}
    (none : Nowhere g.opener (Tag.opening? g) text) : (nextOpening g offset text).2 = .none := by
  rcases nextOpeningFirst single offset text with ⟨_,outcome⟩ | ⟨gap,inner,tag,first,_⟩
  · exact outcome
  · exact absurd none (Delimiter.firstNotNowhere first)

include single in
theorem nextOpeningAt {offset : Nat} {text gap inner : List Char} {tag : Tag.Opening}
    (first : FirstAt g.opener (Tag.opening? g) text gap inner tag) :
    nextOpening g offset text =
      ((afterGap g offset gap tag).next,some (afterGap g offset gap tag)) := by
  rcases nextOpeningFirst single offset text with ⟨nowhere,_⟩ | ⟨gap',inner',tag',first',outcome⟩
  · exact absurd nowhere (Delimiter.firstNotNowhere first)
  · obtain ⟨rfl,_,rfl⟩ := Delimiter.firstUnique single.sharp first first'
    exact outcome

def closedAfter (g : CommentGrammar) (offset : Nat) (gap : List Char) (tag : Nat × List Char) :
    Nat × Cursor :=
  (offset + Text.size gap,⟨offset + Text.size gap + g.opener.size + tag.1,tag.2⟩)

include single in
theorem closingFirst (command : List Char) (offset : Nat) (text : List Char) :
    (Nowhere g.opener (Tag.closing? g command) text ∧ closing? g command offset text = none) ∨
    ∃ gap inner tag, FirstAt g.opener (Tag.closing? g command) text gap inner tag ∧
      closing? g command offset text = some (closedAfter g offset gap tag) := by
  have alone := single.openers
  refine Delimiter.searchFirst single.sharp (Tag.closing? g command) (closing? g command) (· = none)
    (fun start tag => some (closedAfter g start [] tag))
    (fun offset text missed => ?_) (fun offset text f found => ?_) offset text
  · exact closingStop (alone ▸ missed)
  · rw [closingStep (alone ▸ found), (Delimiter.findSome.mp found).1]
    cases Tag.closing? g command f.rest <;> rfl

include single in
theorem closingNowhere {command : List Char} {offset : Nat} {text : List Char}
    (none : Nowhere g.opener (Tag.closing? g command) text) :
    closing? g command offset text = .none := by
  rcases closingFirst single command offset text with ⟨_,outcome⟩ | ⟨gap,inner,tag,first,_⟩
  · exact outcome
  · exact absurd none (Delimiter.firstNotNowhere first)

include single in
theorem closingAt {command : List Char} {offset : Nat} {text gap inner : List Char}
    {tag : Nat × List Char}
    (first : FirstAt g.opener (Tag.closing? g command) text gap inner tag) :
    closing? g command offset text = some (closedAfter g offset gap tag) := by
  rcases closingFirst single command offset text with ⟨nowhere,_⟩ | ⟨gap',inner',tag',first',outcome⟩
  · exact absurd nowhere (Delimiter.firstNotNowhere first)
  · obtain ⟨rfl,_,rfl⟩ := Delimiter.firstUnique single.sharp first first'
    exact outcome

end Cursor

theorem Scanner.ofTextWhole (g : CommentGrammar) (text : List Char) :
    Scanner.ofText g text = ⟨g,.ofText text,0,some text⟩ := by
  have start : Text.dropBytes? 0 text = some text := by cases text <;> rfl
  unfold Scanner.ofText Scanner.startingAt
  simp only [Nat.zero_min, start]

end DocBlocks
