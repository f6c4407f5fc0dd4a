import DocBlocks.Proofs.Document.Regenerated
import DocBlocks.Proofs.Text.Slices

/-! When the scanner reads back the opening tag that a bound block writes. The serialized arguments know
nothing of comments, so a value that holds the end of a comment ends the tag early. -/
namespace DocBlocks.BoundBlock
open CommentGrammar (markdown)
open Delimiter (FirstAt Free Nowhere)
open Tag

def ReadsBack (b : BoundBlock) : Prop :=
  ∃ opening scanner,
    (Scanner.ofText b.grammar b.startTag.toList).nextOpening = (some opening,scanner) ∧
    scanner.nextOpening.1 = none ∧
    opening.position.stop.offset = Text.size b.startTag.toList ∧
    opening.command = b.block.command ∧
    Arguments.parse opening.arguments = b.arguments

variable {b : BoundBlock} {command : List Char} {a : Arguments}

theorem scanFound {text gap inner : List Char} {tag : Tag.Opening}
    (first : FirstAt opener (opening? markdown) text gap inner tag) :
    (Scanner.ofText markdown text).nextOpening =
      (some (Opening.ofMatch (.ofText text) (Cursor.afterGap markdown 0 gap tag)),
        (Scanner.ofText markdown text).moveTo (Cursor.afterGap markdown 0 gap tag).next) := by
  have outcome : Cursor.nextOpening markdown 0 text = _ :=
    Cursor.nextOpeningAt CommentGrammar.singleMarkdown first
  rw [Scanner.ofTextWhole]
  unfold Scanner.nextOpening
  dsimp only
  rw [outcome]

theorem scanNone {scanner : Scanner} {text : List Char} (kind : scanner.grammar = markdown)
    (rest : scanner.rest = some text) (none : Nowhere opener (opening? markdown) text) :
    scanner.nextOpening.1 = .none := by
  have outcome : (Cursor.nextOpening markdown scanner.offset text).2 = .none :=
    Cursor.nextOpeningNowhere CommentGrammar.singleMarkdown none
  unfold Scanner.nextOpening
  rw [rest, kind]
  dsimp only
  split
  · rfl
  · rename_i found
    rw [found] at outcome
    cases outcome

theorem headAccepted (filled : command ≠ []) (chars : ∀ c ∈ command, isCommandChar c = true) :
    opening? markdown (headText command a.written) ≠ none := by
  intro rejected
  have solid : ∀ c, (openMark ++ (command ++ (a.written ++ closer.chars))).head? = some c →
      Text.isBlank c = false := by
    intro c head
    cases head
    rfl
  have ends : ∀ c, (a.written ++ closer.chars).head? = some c → isCommandChar c = false := by
    intro c head
    cases head
    rfl
  have trimmed : Text.trimStart (headText command a.written) = _ :=
    trimBlanks oneBlank solid
  have split := takeStop chars ends
  rw [openingNone, trimmed] at rejected
  rcases rejected _ (Text.after?_append _ _) with empty | free
  · rw [split.1] at empty
    exact filled empty
  · rw [split.2] at free
    exact free a.written [] (by simp)

theorem startTagWritten (kind : b.grammar = markdown) :
    b.startTag.toList = opener.chars ++ headText b.block.command.toList b.arguments.written := by
  rw [startTag, kind, openingTagWritten]

theorem headParts {blanks raw : List Char}
    (tag : Open blanks command raw) (same : headText command a.written = openText blanks command raw) :
    raw = a.written := by
  have solid (raw : List Char) : ∀ c, (openMark ++ (command ++ (raw ++ closer.chars))).head? = some c →
      Text.isBlank c = false := by
    intro c head
    cases head
    rfl
  have one : (headText command a.written).takeWhile Text.isBlank = [' '] :=
    (takeStop oneBlank (solid a.written)).1
  have two : (openText blanks command raw).takeWhile Text.isBlank = blanks :=
    (takeStop tag.blank (solid raw)).1
  rw [same, two] at one
  subst one
  have rest := List.append_cancel_left (List.append_cancel_left same)
  exact (List.append_cancel_right (List.append_cancel_left rest)).symm

theorem scannedWhole {opening : DocBlocks.Opening} {scanner : Scanner} (filled : command ≠ [])
    (chars : ∀ c ∈ command, isCommandChar c = true)
    (scan : (Scanner.ofText markdown (opener.chars ++ headText command a.written)).nextOpening =
      (some opening,scanner))
    (stop : opening.position.stop.offset = Text.size (opener.chars ++ headText command a.written))
    (name : opening.command = String.ofList command) :
    opening.arguments = String.ofList a.written ∧ closer.FirstAfter a.written := by
  rcases Cursor.nextOpeningFirst CommentGrammar.singleMarkdown 0
      (opener.chars ++ headText command a.written) with ⟨none,_⟩ | ⟨gap,inner,tag,first,_⟩
  · have missed : (Scanner.ofText markdown
        (opener.chars ++ headText command a.written)).nextOpening.1 = .none :=
      scanNone (by rw [Scanner.ofTextWhole]) (by rw [Scanner.ofTextWhole]) none
    rw [scan] at missed
    cases missed
  · rw [scanFound first] at scan
    cases scan
    obtain ⟨blanks,open',rfl,sized⟩ := openingParts first.accepted
    -- no tag begins earlier than the one that was written
    have here : gap = [] := by
      have least := Delimiter.firstLeast CommentGrammar.singleMarkdown.sharp first
        (show _ = [] ++ (opener.chars ++ _) from rfl) (headAccepted filled chars)
      exact List.length_eq_zero_iff.mp (Nat.le_zero.mp least)
    subst here
    have same := List.append_cancel_left first.whole
    have ends : tag.rest = [] := by
      have bytes := congrArg Text.size same
      change 0 + Text.size [] + opener.size + tag.size = _ at stop
      simp only [Text.size_append, Text.size_nil, Delimiter.size] at bytes stop
      exact Text.sizeZero (by omega)
    have spelled : tag.command = command := String.ofList_injective name
    rw [ends, List.append_nil, spelled] at same
    rw [spelled] at open'
    have raw := headParts open' same
    exact ⟨congrArg String.ofList raw,raw ▸ open'.first⟩

theorem readsWritten (kind : b.grammar = markdown) (valid : isValidCommand b.block.command = true)
    (sourced : b.arguments.Sourced) (reads : b.ReadsBack) :
    Free closer b.arguments.toSource.toList ∧ b.arguments.reread = b.arguments := by
  obtain ⟨filled,chars⟩ := validCommand valid
  unfold ReadsBack at reads
  rw [kind, startTagWritten kind] at reads
  obtain ⟨opening,scanner,scan,_,stop,name,parsed⟩ := reads
  obtain ⟨raw,first⟩ := scannedWhole filled (fun c member => (chars c member).1) scan stop
    (name.trans String.ofList_toList.symm)
  rw [raw, Arguments.parse, Arguments.parseRaw sourced] at parsed
  exact ⟨writtenFirst.mp first,parsed⟩

theorem writtenReads (kind : b.grammar = markdown) (valid : isValidCommand b.block.command = true)
    (sourced : b.arguments.Sourced) (free : Free closer b.arguments.toSource.toList)
    (same : b.arguments.reread = b.arguments) : b.ReadsBack := by
  obtain ⟨filled,chars⟩ := validCommand valid
  have first : FirstAt opener (opening? markdown)
      ([] ++ (opener.chars ++ (headText b.block.command.toList b.arguments.written ++ []))) [] _ _ :=
    plainFirst (by simp) (openingRead (writtenOpen filled (fun c member => (chars c member).1) free) [])
  rw [List.nil_append, List.append_nil] at first
  unfold ReadsBack
  rw [kind, startTagWritten kind]
  refine ⟨_,_,scanFound first,?_,?_,?_,?_⟩
  · exact scanNone (by rw [Scanner.ofTextWhole]; rfl) rfl nowhereNil
  · change 0 + Text.size [] + opener.size + _ = _
    simp [Delimiter.size, headText]
  · exact String.ofList_toList
  · change Arguments.parse (String.ofList b.arguments.written) = _
    rw [Arguments.parse, Arguments.parseRaw sourced]
    exact same

theorem readsBackIff (kind : b.grammar = markdown) (valid : isValidCommand b.block.command = true)
    (sourced : b.arguments.Sourced) :
    b.ReadsBack ↔ Free closer b.arguments.toSource.toList ∧ b.arguments.reread = b.arguments :=
  ⟨readsWritten kind valid sourced,fun ⟨free,same⟩ => writtenReads kind valid sourced free same⟩

end DocBlocks.BoundBlock

namespace DocBlocks.Plugin
open Arguments (Sourced)
open Reading Binder

def Writes (plugin : Plugin) : Prop :=
  ∀ command supplied generator after, Sourced supplied →
    plugin.bind.run (.ofArguments command supplied) = .ok (generator,after) → Sourced after.declared

theorem suppliedKeyed {b : Binder} {name : String} {value : Value} (sourced : Sourced b.supplied)
    (present : b.supplied? name = some value) : value.Keyed :=
  sourced.keyed name value (Entries.getMember (Option.filter_eq_some_iff.mp present).1)

theorem usedKeyed {b : Binder} {default : Value} (name : String) (sourced : Sourced b.supplied)
    (keyed : default.Keyed) : (used name default b).Keyed := by
  cases found : b.supplied? name with
  | none =>
      rw [used, found]
      exact keyed
  | some value =>
      rw [usedPresent found]
      exact suppliedKeyed sourced found

theorem startSourced (command : String) {supplied : Arguments} (sourced : Sourced supplied) :
    Sourced (ofArguments command supplied).declared := by
  cases found : (ofArguments command supplied).supplied? headerName with
  | none =>
      rw [startAbsent found]
      exact Arguments.emptySourced
  | some value =>
      rw [startPresent found]
      rw [← startSupplied command supplied] at sourced
      exact Arguments.insertSourced Arguments.emptySourced headerNamed (suppliedKeyed sourced found)

theorem echoWrites (command : String) : (echo command).Writes := by
  intro name supplied generator after sourced run
  obtain ⟨typed,_,run⟩ := getRun.mp run
  cases run
  refine Arguments.insertSourced (startSourced name sourced) textNamed ?_
  refine usedKeyed "text" ?_ (Value.keyedScalar trivial)
  rw [startSupplied]
  exact sourced

end DocBlocks.Plugin

namespace DocBlocks.BoundBlock
open CommentGrammar (markdown)
open Delimiter (Free)

variable {plugin : Plugin} {s : Session} {block : Block} {target : BoundBlock}

/- What is written reads back exactly when no end of a comment stands in the serialized arguments, and
every float in them is what its text is read as. -/
theorem startTagReads (writes : plugin.Writes) (found : s.registry.lookup block.command = .ok plugin)
    (bound : ((Fragment.ofBlock markdown block).run s).1 = .bound target) :
    target.ReadsBack ↔
      Free Tag.closer target.arguments.toSource.toList ∧ target.arguments.reread = target.arguments := by
  obtain ⟨_,_,other,generator,after,found',run,rfl⟩ := Fragment.ofBlockBound.mp bound
  cases found.symm.trans found'
  exact readsBackIff rfl (Document.lookupMember found).1
    (writes _ _ generator after (Arguments.parseSourced block.arguments) run)

def echoSession : Session := .start ⟨[.echo "test.echo"],[]⟩

def echoBlock (arguments : String) : Block :=
  let place := (LineTable.ofText []).position 0 0
  ⟨"test.echo",arguments,place,some place,place⟩

def echoTarget (arguments text : String) : BoundBlock :=
  ⟨echoBlock arguments,⟨[("text",.string text)]⟩,fun _ => return text,markdown⟩

theorem echoFound : echoSession.registry.lookup "test.echo" = .ok (.echo "test.echo") := by cbv

theorem echoBound {arguments text : String}
    (parsed : Arguments.parse arguments = ⟨[("text",.string text)]⟩) :
    ((Fragment.ofBlock markdown (echoBlock arguments)).run echoSession).1 =
      .bound (echoTarget arguments text) := by
  refine Fragment.ofBlockBound.mpr ⟨?_,rfl,.echo "test.echo",fun _ => return text,
    ⟨"test.echo",⟨[("text",.string text)]⟩,⟨[("text",.string text)]⟩⟩,echoFound,?_,rfl⟩
  · change isReservedCommand "test.echo" = false
    cbv
  · change (Plugin.echo "test.echo").bind.run (.ofArguments "test.echo" (.parse arguments)) = _
    rw [parsed]
    rfl

theorem echoReads :
    (Plugin.echo "test.echo").Writes ∧
    echoSession.registry.lookup (echoBlock " text = \"-\" ").command = .ok (.echo "test.echo") ∧
    ((Fragment.ofBlock markdown (echoBlock " text = \"-\" ")).run echoSession).1 =
      .bound (echoTarget " text = \"-\" " "-") ∧
    (echoTarget " text = \"-\" " "-").ReadsBack := by
  have bound : ((Fragment.ofBlock markdown (echoBlock " text = \"-\" ")).run echoSession).1 =
      .bound (echoTarget " text = \"-\" " "-") := echoBound (by cbv)
  have free : Free Tag.closer (echoTarget " text = \"-\" " "-").arguments.toSource.toList :=
    Delimiter.findNone.mp (by decide)
  exact ⟨Plugin.echoWrites _,echoFound,bound,
    (startTagReads (Plugin.echoWrites _) echoFound bound).mpr ⟨free,rfl⟩⟩

/- The two halves of the end of a comment are harmless in the text, and end the tag that is written. -/
theorem echoEndsEarly :
    ((Fragment.ofBlock markdown (echoBlock " text = \"--\" + \">\" ")).run echoSession).1 =
        .bound (echoTarget " text = \"--\" + \">\" " "-->") ∧
      ¬ (echoTarget " text = \"--\" + \">\" " "-->").ReadsBack := by
  refine ⟨echoBound (by cbv),fun reads => ?_⟩
  have sourced : (echoTarget " text = \"--\" + \">\" " "-->").arguments.Sourced :=
    Arguments.insertSourced Arguments.emptySourced Plugin.textNamed (Value.keyedScalar trivial)
  have free := ((readsBackIff rfl (Document.lookupMember echoFound).1 sourced).mp reads).1
  exact free "text = \"".toList "\"\n".toList (by decide)

end DocBlocks.BoundBlock
