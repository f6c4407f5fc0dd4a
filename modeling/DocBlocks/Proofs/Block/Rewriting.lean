import DocBlocks.Proofs.Block.Trace
import DocBlocks.Proofs.Text.Lines

/-! Replacing blocks in a text. When every block of a text stays as it is or is written anew under the
same command, the scanner finds the same blocks again in the new text, between the same gaps. -/
namespace DocBlocks.Tag
open CommentGrammar (markdown)
open Delimiter (FirstAt Nowhere Free)

structure Safe (command arguments body : List Char) : Prop where
  head : Open [' '] command arguments
  free : isReserved command = false
  plain : '<' ∉ command
  fenced : Text.Fenced arguments
  closers : Free closer arguments
  openers : Free opener body

def headText (command arguments : List Char) : List Char := openText [' '] command arguments

def footText (command : List Char) : List Char := closeText [' '] command [' ']

def framed (body : List Char) : List Char := '\n' :: (body ++ ['\n'])

def entryText (command arguments body : List Char) : List Char :=
  opener.chars ++ (headText command arguments ++ (framed body ++ (opener.chars ++ footText command)))

inductive Rewritten : Piece → Piece → Prop where
  | same (piece : Piece) : Rewritten piece piece
  | entry {command arguments arguments' text body : List Char}
      (safe : Safe command arguments' body) :
      Rewritten ⟨command,arguments,text,true⟩
        ⟨command,arguments',entryText command arguments' body,true⟩

inductive AllRewritten : List (List Char × Piece) → List (List Char × Piece) → Prop where
  | nil : AllRewritten [] []
  | cons {gap : List Char} {piece piece' : Piece} {pieces pieces' : List (List Char × Piece)}
      (first : Rewritten piece piece') (others : AllRewritten pieces pieces') :
      AllRewritten ((gap,piece) :: pieces) ((gap,piece') :: pieces')

theorem footClose : Close [' '] [' '] := ⟨oneBlank,oneBlank⟩

theorem framedFree {body : List Char} (free : Free opener body) : Free opener (framed body) := by
  refine Delimiter.freeCons (by decide) ?_
  intro p q same
  obtain ⟨between,rfl⟩ := Delimiter.behindStop free (by decide) same
  have length := congrArg List.length same
  simp [Delimiter.chars] at length

theorem entryOpens {command arguments : List Char} (head : Open [' '] command arguments)
    (rest : List Char) :
    opening? markdown (headText command arguments ++ rest) =
      some ⟨command,arguments,Text.size (headText command arguments),rest⟩ :=
  openingRead head rest

theorem entryCloses {command body : List Char} (free : Free opener body) (rest : List Char) :
    FirstAt opener (closing? markdown command)
      (framed body ++ (opener.chars ++ (footText command ++ rest))) (framed body)
      (footText command ++ rest) (Text.size (footText command),rest) := by
  refine ⟨rfl,closingRead footClose command rest,fun p q inside => ?_⟩
  exact absurd inside (framedFree free p q)

theorem plainFirst {gap inner : List Char} {tag : Opening} (plain : '<' ∉ gap)
    (read : opening? markdown inner = some tag) :
    FirstAt opener (opening? markdown) (gap ++ (opener.chars ++ inner)) gap inner tag := by
  refine ⟨rfl,read,fun p q inside => ?_⟩
  rw [inside] at plain
  exact absurd (List.mem_append_right p List.mem_cons_self) plain

theorem nowhereNil {β : Type} {accept : List Char → Option β} : Nowhere opener accept [] := by
  intro p q same
  have length := congrArg List.length same
  simp [Delimiter.chars] at length

theorem entryTrace {gap command arguments body : List Char} (plain : '<' ∉ gap)
    (safe : Safe command arguments body) :
    Trace (gap ++ entryText command arguments body)
      [(gap,⟨command,arguments,entryText command arguments body,true⟩)] [] := by
  have trace := Trace.closed (plainFirst plain (entryOpens safe.head _))
    (entryCloses safe.openers []) (.done nowhereNil)
  simpa [entryText] using trace

theorem nowhereSuffix {β : Type} {accept : List Char → Option β} {a b : List Char}
    (none : Nowhere opener accept (a ++ b)) : Nowhere opener accept b := by
  rintro p q rfl
  exact none (a ++ p) q (by simp)

theorem nowherePlain {β : Type} {accept : List Char → Option β} {a b : List Char} (plain : '<' ∉ a)
    (none : Nowhere opener accept b) : Nowhere opener accept (a ++ b) := by
  intro p q same
  rcases List.append_eq_append_iff.mp same with ⟨gap,rfl,rest⟩ | ⟨gap,rfl,rest⟩
  · exact none gap q rest
  · cases gap with
    | nil => exact none [] q (by simpa using rest.symm)
    | cons c gap =>
        obtain ⟨rfl,_⟩ := List.cons.inj rest
        exact absurd (List.mem_append_right p List.mem_cons_self) plain

theorem nowhereOpener {β : Type} {accept : List Char → Option β} {text : List Char}
    (rejected : accept text = .none) (none : Nowhere opener accept text) :
    Nowhere opener accept (opener.chars ++ text) := by
  intro p q same
  rcases Delimiter.occurrencesApart CommentGrammar.singleMarkdown.sharp
    (show [] ++ (opener.chars ++ text) = p ++ (opener.chars ++ q) from same) (Nat.zero_le _) with
    ⟨_,rfl⟩ | ⟨between,_,after⟩
  · exact rejected
  · exact none between q after

theorem reservedChars {command : List Char} (kept : isReserved command = true) :
    '"' ∉ command ∧ '-' ∉ command ∧ ' ' ∉ command := by
  have upper : (String.ofList command).map Char.toUpper ∈ reservedCommands := by
    simpa [isReserved, isReservedCommand] using kept
  have chars : command.map Char.toUpper ∈ ["META".toList, "TODO".toList, "TODO:".toList] := by
    have spelled : ((String.ofList command).map Char.toUpper).toList = command.map Char.toUpper := by
      simp
    rw [← spelled]
    simp only [reservedCommands, List.mem_cons, List.not_mem_nil, or_false] at upper ⊢
    rcases upper with same | same | same <;> simp [same]
  have none (c : Char) (fixed : c.toUpper = c)
      (other : ∀ name ∈ ["META".toList, "TODO".toList, "TODO:".toList], c ∉ name) : c ∉ command := by
    intro member
    have inside := List.mem_map_of_mem (f := Char.toUpper) member
    rw [fixed] at inside
    exact other _ chars inside
  exact ⟨none '"' rfl (by decide),none '-' rfl (by decide),none ' ' rfl (by decide)⟩

/- A closing tag inside a written opening tag would need a closing delimiter before the quote. -/
theorem argumentsReject {command arguments q rest : List Char} (quote : '"' ∉ command)
    (closers : Free closer arguments) {p : List Char} (inside : arguments = p ++ '<' :: q)
    (fenced : '"' ∈ q) {inner : List Char} (starts : q ++ rest = '!' :: '-' :: '-' :: inner) :
    closing? markdown command inner = none := by
  cases read : closing? markdown command inner with
  | none => rfl
  | some tag =>
      obtain ⟨blanks,between,close,whole,_⟩ := closingParts read
      obtain ⟨before,after,rfl⟩ := List.append_of_mem fenced
      have noQuote : '"' ∉ '!' :: '-' :: '-' :: closeText blanks command between := by
        have blank (part : List Char) (all : ∀ c ∈ part, Text.isBlank c = true) : '"' ∉ part := by
          intro member
          have := all _ member
          cases this
        have one := blank blanks close.blank
        have two := blank between close.ends
        have mark : '"' ∉ closeMark := by decide
        have ends : '"' ∉ closer.chars := by decide
        simp [closeText, one, two, mark, ends, quote]
      have same : before ++ ('"' :: after ++ rest) =
          ('!' :: '-' :: '-' :: closeText blanks command between) ++ tag.2 :=
        calc before ++ ('"' :: after ++ rest) = before ++ '"' :: after ++ rest := by simp
          _ = '!' :: '-' :: '-' :: (closeText blanks command between ++ tag.2) := by
            rw [starts, whole]
          _ = _ := rfl
      exfalso
      -- the tag has no quote, so it would end before the one behind it, inside the arguments
      rcases List.append_eq_append_iff.mp same with ⟨gap,long,right⟩ | ⟨gap,short,_⟩
      · cases gap with
        | nil =>
            rw [List.append_nil] at long
            refine closers (p ++ '<' :: '!' :: '-' :: '-' :: (blanks ++ (closeMark ++
              (command ++ between)))) ('"' :: after) ?_
            rw [inside, ← long]
            simp [closeText]
        | cons c gap =>
            obtain ⟨rfl,_⟩ := List.cons.inj right
            exact absurd (by rw [long]; simp) noQuote
      · refine closers (p ++ '<' :: '!' :: '-' :: '-' :: (blanks ++ (closeMark ++
          (command ++ between)))) (gap ++ '"' :: after) ?_
        rw [inside, short]
        simp [closeText]

theorem headReject (command : List Char) {written arguments : List Char} (rest : List Char) :
    closing? markdown command (headText written arguments ++ rest) = none := by
  rw [closingNone]
  intro named marked
  cases marked

/- The closing tag of one command is no closing tag of another: the shorter command ends at the blank
that ends the longer one. -/
theorem footReject {command written : List Char} (other : command ≠ written)
    (blank : ' ' ∉ command) (chars : ∀ c ∈ written, isCommandChar c = true) (rest : List Char) :
    closing? markdown command (footText written ++ rest) = none := by
  rw [closingNone]
  intro named marked ended spelled
  have shape : Text.trimStart (footText written ++ rest) =
      closeMark ++ (written ++ (' ' :: closer.chars ++ rest)) := by
    simp [footText, closeText, Text.trimStart, closeMark, Text.isBlank]
  rw [shape, Text.after?_append] at marked
  obtain rfl := Option.some.inj marked
  have same := Text.eq_append_of_after? spelled
  rcases List.append_eq_append_iff.mp same with ⟨gap,rfl,right⟩ | ⟨gap,rfl,right⟩
  · cases gap with
    | nil => simp at other
    | cons c gap =>
        obtain ⟨rfl,_⟩ := List.cons.inj right
        simp at blank
  · cases gap with
    | nil => simp at other
    | cons c gap =>
        have part := chars c (by simp)
        have solid : Text.isBlank c = false := by
          cases here : Text.isBlank c with
          | false => rfl
          | true => simp [isCommandChar, here] at part
        have dash : ¬ '-' = c := by
          rintro rfl
          cases part
        rw [right, Text.trimStart, List.cons_append, List.dropWhile_cons_of_neg (by simp [solid])]
        change Text.after? ['-','-','>'] _ = none
        simp [Text.after?, dash]

theorem headSilent {command written arguments body : List Char}
    (kept : isReserved command = true) (safe : Safe written arguments body) :
    Nowhere opener (closing? markdown command) (headText written arguments ++ framed body) := by
  have cut : headText written arguments ++ framed body =
      ([' '] ++ (openMark ++ written)) ++ (arguments ++ (closer.chars ++ framed body)) := by
    simp [headText, openText]
  rw [cut]
  refine nowherePlain (by simp [openMark, safe.plain]) ?_
  have behind : Nowhere opener (closing? markdown command) (closer.chars ++ framed body) :=
    nowherePlain (by decide) (Delimiter.nowhereFree (framedFree safe.openers))
  intro p q same
  rcases List.append_eq_append_iff.mp same with ⟨gap,rfl,rest⟩ | ⟨gap,whole,rest⟩
  · exact behind gap q rest
  · cases gap with
    | nil => exact behind [] q (by simpa using rest.symm)
    | cons c gap =>
        obtain ⟨rfl,starts⟩ := List.cons.inj rest
        exact argumentsReject (reservedChars kept).1 safe.closers whole (safe.fenced p gap whole)
          starts.symm

theorem entrySilent {command written arguments body rest : List Char}
    (kept : isReserved command = true) (safe : Safe written arguments body)
    (none : Nowhere opener (closing? markdown command) rest) :
    Nowhere opener (closing? markdown command) (entryText written arguments body ++ rest) := by
  obtain ⟨_,noDash,blank⟩ := reservedChars kept
  have other : command ≠ written := by
    rintro rfl
    rw [safe.free] at kept
    cases kept
  have plain : '<' ∉ footText written := by
    simp [footText, closeText, closeMark, safe.plain, Delimiter.chars]
    decide
  have foot : Nowhere opener (closing? markdown command)
      (opener.chars ++ (footText written ++ rest)) :=
    nowhereOpener (footReject other blank safe.head.chars rest) (nowherePlain plain none)
  have cut : entryText written arguments body ++ rest =
      opener.chars ++ (headText written arguments ++ framed body ++
        (opener.chars ++ (footText written ++ rest))) := by
    simp [entryText]
  rw [cut]
  refine nowhereOpener ?_ ?_
  · rw [List.append_assoc]
    exact headReject command _
  · refine (nowhereJoined noDash ?_).mpr ⟨headSilent kept safe,foot⟩
    simp [footText, closeText]

theorem openingTail {head command arguments rest : List Char}
    (read : opening? markdown (head ++ rest) = some ⟨command,arguments,Text.size head,rest⟩)
    (others : List Char) :
    opening? markdown (head ++ others) = some ⟨command,arguments,Text.size head,others⟩ := by
  obtain ⟨blanks,open',whole,_⟩ := openingParts read
  have same : head = openText blanks command arguments := List.append_cancel_right whole
  rw [same]
  exact openingRead open' others

theorem openingHead {inner : List Char} {tag : Opening} (read : opening? markdown inner = some tag) :
    inner.head? ≠ some '>' := by
  obtain ⟨blanks,open',rfl,_⟩ := openingParts read
  unfold openText
  cases blanks with
  | nil => simp [openMark]
  | cons b blanks =>
      have blank := open'.blank b (by simp)
      intro head
      simp only [List.cons_append, List.head?_cons, Option.some.injEq] at head
      rw [head] at blank
      cases blank

variable {text last : List Char} {pieces pieces' : List (List Char × Piece)}

/- A reserved command that is not closed in a text is not closed by what its blocks are written with. -/
theorem silentRewritten {command : List Char} (kept : isReserved command = true)
    (trace : Trace text pieces last) (rewritten : AllRewritten pieces pieces') (before : List Char)
    (none : Nowhere opener (closing? markdown command) (before ++ text)) :
    Nowhere opener (closing? markdown command) (before ++ assembled Piece.text pieces' last) := by
  -- with any text before, since the tag in question may begin earlier than the pieces
  induction trace generalizing before pieces' with
  | done =>
      cases rewritten
      exact none
  | @closed gap head written arguments body foot rest last pieces opens closes later ih =>
      cases rewritten with
      | cons first others =>
          cases first with
          | same =>
              have moved := ih others
                (before ++ (gap ++ (opener.chars ++ (head ++ (body ++ (opener.chars ++ foot))))))
                (by simpa using none)
              simpa [assembled] using moved
          | entry safe =>
              obtain ⟨_,noDash,_⟩ := reservedChars kept
              have parts := (@nowhereJoined command (before ++ gap) _ noDash
                (openingHead opens.accepted)).mp (by simpa using none)
              have last : Nowhere opener (closing? markdown command) rest :=
                @nowhereSuffix _ _ (opener.chars ++ (head ++ (body ++ (opener.chars ++ foot)))) rest
                  (by simpa using parts.2)
              have entry := entrySilent kept safe (ih others [] last)
              have joined := (@nowhereJoined command (before ++ gap) _ noDash
                (openingHead (entryOpens safe.head _))).mpr ⟨parts.1,by
                  simpa only [entryText, List.append_assoc] using entry⟩
              simpa [assembled, entryText] using joined
  | @reserved gap head written arguments rest last pieces opens noneCloses kept' later ih =>
      cases rewritten with
      | cons first others =>
          cases first
          have moved := ih others (before ++ (gap ++ (opener.chars ++ head))) (by simpa using none)
          simpa [assembled] using moved
  | unclosed =>
      cases rewritten with
      | cons first others =>
          cases first
          cases others
          simpa [assembled] using none

theorem traceRewritten (trace : Trace text pieces last) (rewritten : AllRewritten pieces pieces') :
    Trace (assembled Piece.text pieces' last) pieces' last := by
  -- whether a reserved block stays unclosed depends on all that is written behind it
  induction trace generalizing pieces' with
  | done none =>
      cases rewritten
      exact .done none
  | @closed gap head command arguments body foot rest last pieces opens closes later ih =>
      cases rewritten with
      | @cons _ _ _ _ others' first others =>
          have after := ih others
          cases first with
          | same =>
              obtain ⟨foot',whole,_,closes'⟩ := closingMoved (commandDash opens.accepted) closes
              obtain rfl := List.append_cancel_right whole
              have read := openingTail opens.accepted
                (body ++ (opener.chars ++ (foot ++ assembled Piece.text others' last)))
              have moved := Trace.closed (openingMoved opens read) (closes' _) after
              simpa [assembled] using moved
          | entry safe =>
              have moved := Trace.closed (openingMoved opens (entryOpens safe.head _))
                (entryCloses safe.openers _) after
              simpa [assembled, entryText] using moved
  | @reserved gap head command arguments rest last pieces opens none kept later ih =>
      cases rewritten with
      | @cons _ _ _ _ others' first others =>
          cases first
          have read := openingTail opens.accepted (assembled Piece.text others' last)
          have moved := Trace.reserved (openingMoved opens read)
            (silentRewritten kept later others [] none) kept (ih others)
          simpa [assembled] using moved
  | unclosed opens none free =>
      cases rewritten with
      | cons first others =>
          cases first
          cases others
          have same := Trace.unclosed opens none free
          simpa [assembled] using same

end DocBlocks.Tag
