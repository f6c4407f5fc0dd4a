import DocBlocks.Document.Bound
import DocBlocks.Proofs.Arguments.Sourced
import DocBlocks.Proofs.Block.Rewriting

/-! What a bound block writes. Its tags are those of the scanner, and its raw arguments parse to the
arguments that were declared. -/
namespace DocBlocks.Arguments
open Token (IsName)

def written (a : Arguments) : List Char :=
  ' ' :: if a.isEmpty then [] else '\n' :: a.toSource.toList

theorem writtenEmpty {a : Arguments} (empty : a.isEmpty = true) : a.written = [' '] := by
  rw [written, if_pos empty]

theorem writtenFilled {a : Arguments} (filled : a.isEmpty = false) :
    a.written = ' ' :: '\n' :: a.toSource.toList := by
  rw [written, filled]
  rfl

theorem sourceFeed {a : Arguments} (filled : a.isEmpty = false) :
    ∃ front, a.toSource.toList = front ++ ['\n'] := by
  rw [toSourceLines]
  obtain ⟨entries⟩ := a
  cases whole : entries.reverse with
  | nil =>
      rw [List.reverse_eq_nil_iff] at whole
      subst whole
      cases filled
  | cons last front =>
      have parts : entries = front.reverse ++ [last] := by
        rw [← List.reverse_reverse entries, whole, List.reverse_cons]
      refine ⟨Text.unlines (front.reverse.map line) ++ line last,?_⟩
      simp [parts, Text.unlines]

theorem parseRaw {a : Arguments} (sourced : Sourced a) :
    parseWithErrors (String.ofList a.written) = (a.reread,[]) := by
  have blank : ∀ text ∈ [[' ']], Text.isBlankText text = true := by decide
  have inert : ∀ text ∈ [[' ']], Statement.Inert text := by
    intro text member
    rw [List.mem_singleton.mp member]
    exact Statement.inertText _ (by decide)
  cases filled : a.isEmpty with
  | true =>
      have none : a = .empty := by
        obtain ⟨entries⟩ := a
        exact congrArg mk (List.isEmpty_iff.mp filled)
      rw [writtenEmpty filled, none]
      cbv
  | false =>
      have whole : String.ofList a.written =
          String.ofList (Text.unlines [[' ']]) ++ a.toSource := by
        rw [writtenFilled filled, ← String.toList_inj]
        simp [Text.unlines]
      rw [whole]
      exact parseAfter blank inert sourced

theorem sourceFenced {a : Arguments} (named : ∀ name ∈ a.names, IsName name) :
    Text.Fenced a.toSource.toList := by
  rw [toSourceLines]
  obtain ⟨entries⟩ := a
  simp only [names] at named
  induction entries with
  | nil => exact Text.fencedPlain (by simp [Text.unlines])
  | cons binding rest ih =>
      have first := (lineInert (named binding.1 (by simp))).fenced
      have others := ih fun name member => named name (List.mem_cons_of_mem _ member)
      have feed : Text.Fenced ['\n'] := Text.fencedPlain (by decide)
      have whole := Text.fencedAppend (Text.fencedAppend first feed) others
      simpa [Text.unlines] using whole

theorem writtenFenced {a : Arguments} (named : ∀ name ∈ a.names, IsName name) :
    Text.Fenced a.written := by
  cases filled : a.isEmpty with
  | true =>
      rw [writtenEmpty filled]
      exact Text.fencedPlain (by decide)
  | false =>
      rw [writtenFilled filled]
      have front : Text.Fenced [' ','\n'] := Text.fencedPlain (by decide)
      exact Text.fencedAppend front (sourceFenced named)

end DocBlocks.Arguments

namespace DocBlocks.Tag
open CommentGrammar (markdown)
open Delimiter (Free FirstAfter)

variable {a : Arguments}

theorem writtenFree (free : Free closer a.toSource.toList) : Free closer a.written := by
  cases filled : a.isEmpty with
  | true =>
      rw [Arguments.writtenEmpty filled]
      intro p q same
      have length := congrArg List.length same
      have more : closer.more.length = 2 := rfl
      simp only [Delimiter.chars, List.length_append, List.length_cons, List.length_nil, more] at length
      omega
  | false =>
      rw [Arguments.writtenFilled filled]
      exact Delimiter.freeCons (by decide) (Delimiter.freeCons (by decide) free)

/- A written tag ends where it should exactly when no end of a comment is among its arguments. -/
theorem writtenFirst : FirstAfter closer a.written ↔ Free closer a.toSource.toList := by
  constructor
  · intro first
    have free := Delimiter.firstAfterFree first
    cases filled : a.isEmpty with
    | true =>
        obtain ⟨entries⟩ := a
        have none : entries = [] := List.isEmpty_iff.mp filled
        subst none
        intro p q same
        have length := congrArg List.length same
        simp [Arguments.toSource, Delimiter.chars] at length
    | false =>
        rw [Arguments.writtenFilled filled] at free
        exact (Delimiter.freeAppend (a := [' ','\n']) free).2
  · intro free
    have whole := writtenFree free
    obtain ⟨front,c,ends,other⟩ : ∃ front c, a.written = front ++ [c] ∧ c ∉ closer.chars := by
      cases filled : a.isEmpty with
      | true => exact ⟨[],' ',Arguments.writtenEmpty filled,by decide⟩
      | false =>
          obtain ⟨front,feed⟩ := Arguments.sourceFeed filled
          exact ⟨' ' :: '\n' :: front,'\n',by rw [Arguments.writtenFilled filled, feed]; rfl,by decide⟩
    rw [ends] at whole ⊢
    exact Delimiter.firstAfterStop (Delimiter.freeAppend whole).1 other

theorem writtenOpen {command : List Char} (filled : command ≠ [])
    (chars : ∀ c ∈ command, isCommandChar c = true) (free : Free closer a.toSource.toList) :
    Open [' '] command a.written := by
  refine ⟨oneBlank,filled,chars,?_,writtenFirst.mpr free⟩
  intro c head
  cases head
  rfl

theorem validCommand {command : String} (valid : isValidCommand command = true) :
    command.toList ≠ [] ∧ ∀ c ∈ command.toList, isCommandChar c = true ∧ c ≠ '<' := by
  have all := List.all_eq_true.mp valid
  constructor
  · intro empty
    rw [empty] at all
    exact absurd (all [] (by decide)) (by decide)
  · intro c member
    have part : ∀ c : Char, Lexeme.isNamePart c = true → isCommandChar c = true ∧ c ≠ '<' := by
      intro c part
      have table : ∀ n < 128, Lexeme.isNamePart (Char.ofNat n) = true →
          isCommandChar (Char.ofNat n) = true ∧ Char.ofNat n ≠ '<' := by decide
      have this := table c.toNat (Arguments.nameAscii part)
      rw [Char.ofNat_toNat] at this
      exact this part
    rcases Text.piecesMember (p := (· == '.')) member with dot | ⟨piece,inside,found⟩
    · rw [beq_iff_eq.mp dot]
      exact ⟨by decide,by decide⟩
    · have named := all piece inside
      cases piece with
      | nil => cases named
      | cons first rest =>
          simp only [Bool.and_eq_true, List.all_eq_true] at named
          rcases List.mem_cons.mp found with rfl | later
          · exact part c (Arguments.nameStartPart named.1)
          · exact part c (named.2 c later)

theorem openingTagWritten (command : String) (a : Arguments) :
    (BoundBlock.openingTag markdown command a).toList =
      opener.chars ++ headText command.toList a.written := by
  unfold BoundBlock.openingTag headText openText Arguments.written
  cases a.isEmpty <;>
    simp [Delimiter.text, openMark]

theorem closingTagWritten (command : String) :
    (BoundBlock.closingTag markdown command).toList = opener.chars ++ footText command.toList := by
  unfold BoundBlock.closingTag footText closeText
  simp [Delimiter.text, closeMark]

theorem entryWritten {b : BoundBlock} (body : String) (kind : b.grammar = markdown) :
    (b.entry body).toList =
      entryText b.block.command.toList b.arguments.written body.toList := by
  unfold BoundBlock.entry BoundBlock.startTag BoundBlock.endTag entryText framed
  rw [kind]
  simp [openingTagWritten, closingTagWritten]

end DocBlocks.Tag
