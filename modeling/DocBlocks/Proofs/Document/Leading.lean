import DocBlocks.Document.Leading
import DocBlocks.Proofs.Block.Cut
import DocBlocks.Proofs.Text.Lines
import Mathlib.Data.List.TakeWhile

/-! The arguments of a leading comment against the scanner on the whole text. The comment is read line
by line and scanned alone, yet what is found in it is the first opening of the text, and lines behind
the comment have no part in it. -/
namespace DocBlocks.Leading
open Text (isBlankText joined unlines)

variable {g : CommentGrammar}

theorem untilClosedPrefix (g : CommentGrammar) (ls : List (List Char)) : untilClosed g ls <+: ls := by
  induction ls with
  | nil => exact List.prefix_rfl
  | cons line rest ih =>
      rw [untilClosed]
      split
      · exact List.prefix_append [line] rest
      · exact List.cons_prefix_cons.mpr ⟨rfl,ih⟩

theorem commentWithin (g : CommentGrammar) (ls : List (List Char)) : ∃ blanks rest,
    ls = blanks ++ (comment g ls ++ rest) ∧ ∀ line ∈ blanks, isBlankText line = true := by
  induction ls with
  | nil => exact ⟨[],[],rfl,nofun⟩
  | cons line rest ih =>
      rw [comment]
      split
      · rename_i blank
        obtain ⟨blanks,more,whole,each⟩ := ih
        exact ⟨line :: blanks,more,congrArg (line :: ·) whole,List.forall_mem_cons.mpr ⟨blank,each⟩⟩
      · split
        · exact ⟨[],line :: rest,rfl,nofun⟩
        · split
          · exact ⟨[],rest,rfl,nofun⟩
          · obtain ⟨more,whole⟩ := untilClosedPrefix g rest
            exact ⟨[],more,congrArg (line :: ·) whole.symm,nofun⟩

inductive Ends (g : CommentGrammar) : List (List Char) → Prop where
  | blank {line : List Char} {ls : List (List Char)} (blank : isBlankText line = true)
      (next : Ends g ls) : Ends g (line :: ls)
  | here {line inside : List Char} {d : Delimiter} (opens : g.lineOpener? line = some (d,inside))
      (closes : g.closesLine inside = true) : Ends g [line]
  | later {line inside last : List Char} {d : Delimiter} {between : List (List Char)}
      (opens : g.lineOpener? line = some (d,inside)) (goes : g.closesLine inside = false)
      (open' : ∀ other ∈ between, g.closesLine other = false) (closes : g.closesLine last = true) :
      Ends g (line :: (between ++ [last]))

theorem untilClosedAt {last : List Char} {between : List (List Char)}
    (open' : ∀ other ∈ between, g.closesLine other = false) (closes : g.closesLine last = true)
    (more : List (List Char)) : untilClosed g (between ++ last :: more) = between ++ [last] := by
  induction between with
  | nil => simp [untilClosed, closes]
  | cons line between ih =>
      obtain ⟨goes,others⟩ := List.forall_mem_cons.mp open'
      rw [List.cons_append, untilClosed, goes, ih others]
      rfl

theorem openerFilled {line inside : List Char} {d : Delimiter}
    (opens : g.lineOpener? line = some (d,inside)) : isBlankText line = false := by
  rw [← Bool.not_eq_true]
  intro blank
  have none : Text.trimStart line = [] := List.dropWhile_eq_nil_iff.mpr (List.all_eq_true.mp blank)
  rw [CommentGrammar.lineOpener?, none] at opens
  exact Cursor.delimiterFilled d inside (Delimiter.eq_append_of_leading? opens).2.symm

theorem closerFilled {line : List Char} (closes : g.closesLine line = true) : line ≠ [] := by
  rintro rfl
  obtain ⟨d,_,ends⟩ := List.any_eq_true.mp closes
  cases List.suffix_nil.mp (List.isSuffixOf_iff_suffix.mp ends)

theorem endsParts {ls : List (List Char)} (ends : Ends g ls) : ∃ blanks body,
    ls = blanks ++ body ∧ body ≠ [] ∧ (∀ line ∈ blanks, isBlankText line = true) ∧
      ∀ more, comment g (ls ++ more) = body := by
  induction ends with
  | @blank line ls blank next ih =>
      obtain ⟨blanks,body,whole,filled,each,kept⟩ := ih
      refine ⟨line :: blanks,body,congrArg (line :: ·) whole,filled,
        List.forall_mem_cons.mpr ⟨blank,each⟩,fun more => ?_⟩
      rw [List.cons_append, comment, if_pos blank, kept more]
  | @here line _ _ opens closes =>
      refine ⟨[],[line],rfl,List.cons_ne_nil _ _,nofun,fun more => ?_⟩
      simp [comment, openerFilled opens, opens, closes]
  | @later line _ last _ between opens goes open' closes =>
      refine ⟨[],line :: (between ++ [last]),rfl,List.cons_ne_nil _ _,nofun,fun more => ?_⟩
      simp [comment, openerFilled opens, opens, goes, untilClosedAt open' closes more]

theorem endsLast {ls : List (List Char)} (ends : Ends g ls) :
    ∃ last, ls.getLast? = some last ∧ last ≠ [] := by
  induction ends with
  | blank blank next ih =>
      obtain ⟨last,same,filled⟩ := ih
      exact ⟨last,by rw [List.getLast?_cons, same]; rfl,filled⟩
  | @here line _ _ opens closes =>
      refine ⟨line,rfl,?_⟩
      rintro rfl
      cases openerFilled opens
  | @later line _ last _ between opens goes open' closes =>
      exact ⟨last,by rw [← List.cons_append, List.getLast?_concat],closerFilled closes⟩

def scanned (g : CommentGrammar) (text : List Char) : Arguments × List Notice :=
  match (Scanner.ofText g text).nextOpening.1 with
  | some opening => Arguments.parseNoticed opening.arguments
  | none => (.empty,[])

theorem firstOpening (g : CommentGrammar) (text : List Char) :
    (Scanner.ofText g text).nextOpening.1 =
      (Cursor.nextOpening g 0 text).2.map (Opening.ofMatch (.ofText text)) :=
  Scanner.startingOpening g [] text

theorem scannedRaw (g : CommentGrammar) (text : List Char) : scanned g text =
    match (Cursor.nextOpening g 0 text).2 with
    | some found => Arguments.parseNoticed (String.ofList found.arguments)
    | none => (.empty,[]) := by
  rw [scanned, firstOpening]
  cases (Cursor.nextOpening g 0 text).2 <;> rfl

theorem argumentsComment (g : CommentGrammar) (text : List Char) :
    arguments g text = scanned g (joined ['\n'] (comment g (Text.lines text))) := rfl

section

variable (solid : g.Solid)

include solid

theorem scannedBlanks {blanks : List Char} (blank : ∀ c ∈ blanks, Text.isBlank c = true)
    (text : List Char) : scanned g (blanks ++ text) = scanned g text := by
  rw [scannedRaw, scannedRaw, Cursor.nextOpeningBlanks solid blank, Cursor.nextOpeningBehind]
  cases (Cursor.nextOpening g 0 text).2 <;> rfl

theorem firstWithin {blanks text : List Char} {opening : Opening}
    (blank : ∀ c ∈ blanks, Text.isBlank c = true)
    (search : (Scanner.ofText g text).nextOpening.1 = some opening) {more : List Char}
    (cut : more = [] ∨ ∃ rest, more = '\n' :: rest) :
    ∃ opening', (Scanner.ofText g (blanks ++ (text ++ more))).nextOpening.1 = some opening' ∧
      opening'.arguments = opening.arguments := by
  rw [firstOpening] at search ⊢
  obtain ⟨found,first,rfl⟩ := Option.map_eq_some_iff.mp search
  rw [Cursor.nextOpeningBlanks solid blank, Cursor.nextOpeningBehind]
  rcases cut with rfl | ⟨rest,rfl⟩
  · rw [List.append_nil, first]
    exact ⟨_,rfl,rfl⟩
  · rw [Cursor.nextOpeningCut solid first rest]
    exact ⟨_,rfl,rfl⟩

end

theorem scannedNil (g : CommentGrammar) : scanned g [] = (.empty,[]) := by
  rw [scannedRaw, Cursor.nextOpeningStop rfl]

theorem commentMissing {ls : List (List Char)}
    (other : ∀ line, ls.find? (!isBlankText ·) = some line →
      ∀ d ∈ g.openers, ¬ d.chars <+: Text.trimStart line) : comment g ls = [] := by
  induction ls with
  | nil => rfl
  | cons line rest ih =>
      rw [comment]
      cases blank : isBlankText line with
      | true => exact ih fun line' found => other line' (by rw [List.find?_cons, blank]; exact found)
      | false =>
          have first := other line (by rw [List.find?_cons, blank]; rfl)
          cases opens : g.lineOpener? line with
          | none => rfl
          | some outcome =>
              obtain ⟨member,whole⟩ := Delimiter.eq_append_of_leading? opens
              exact absurd ⟨_,whole.symm⟩ (first _ member)

theorem unlinesBlank {ls : List (List Char)} (each : ∀ line ∈ ls, isBlankText line = true) :
    ∀ c ∈ unlines ls, Text.isBlank c = true := by
  intro c member
  obtain ⟨line,inside,here⟩ := List.mem_flatMap.mp member
  rcases List.mem_append.mp here with blank | feed
  · exact List.all_eq_true.mp (each line inside) c blank
  · rw [List.mem_singleton.mp feed]
    rfl

theorem commentPlaced {text : List Char} (plain : '\r' ∉ text)
    (filled : comment g (Text.lines text) ≠ []) : ∃ blanks more,
      text = unlines blanks ++ (joined ['\n'] (comment g (Text.lines text)) ++ more) ∧
      (∀ line ∈ blanks, isBlankText line = true) ∧ (more = [] ∨ ∃ rest, more = '\n' :: rest) := by
  obtain ⟨blanks,rest,whole,each⟩ := commentWithin g (Text.lines text)
  generalize comment g (Text.lines text) = body at filled whole ⊢
  have ends := Text.linesWhole plain
  rw [whole, Text.joinedAppend _ (List.append_ne_nil_of_left_ne_nil filled rest)] at ends
  cases rest with
  | nil =>
      rw [List.append_nil] at ends
      rcases ends with same | same
      · exact ⟨blanks,[],by rw [List.append_nil]; exact same,each,.inl rfl⟩
      · exact ⟨blanks,['\n'],by rw [← List.append_assoc]; exact same,each,.inr ⟨[],rfl⟩⟩
  | cons line rest =>
      rw [Text.joinedAppend body (List.cons_ne_nil _ _), Text.unlinesJoined filled] at ends
      rcases ends with same | same
      · exact ⟨blanks,'\n' :: joined ['\n'] (line :: rest),by rw [same]; simp,each,.inr ⟨_,rfl⟩⟩
      · exact ⟨blanks,'\n' :: (joined ['\n'] (line :: rest) ++ ['\n']),by rw [same]; simp,each,
          .inr ⟨_,rfl⟩⟩

/- The comment of lines in which it ends, scanned alone, gives what the scanner finds in those lines. -/
theorem argumentsEnds (solid : g.Solid) {ls more : List (List Char)} (ends : Ends g ls)
    {text : List Char} (whole : Text.lines text = ls ++ more) :
    arguments g text = scanned g (joined ['\n'] ls) := by
  obtain ⟨blanks,body,rfl,filled,each,kept⟩ := endsParts ends
  rw [argumentsComment, whole, kept, Text.joinedAppend blanks filled,
    scannedBlanks solid (unlinesBlank each)]

/-- Holds if the arguments of the leading comment of a text are those of the first opening that the
scanner finds in it, or none. There are none if the first line that is not blank does not begin with an
opening delimiter, and lines behind the one in which the comment ends do not change them. -/
structure Agrees (g : CommentGrammar) (text : List Char) : Prop where
  found : arguments g text = (.empty,[]) ∨ ∃ opening,
    (Scanner.ofText g text).nextOpening.1 = some opening ∧
      arguments g text = Arguments.parseNoticed opening.arguments
  missing : (∀ line, (Text.lines text).find? (!isBlankText ·) = some line →
      ∀ d ∈ g.openers, ¬ d.chars <+: Text.trimStart line) → arguments g text = (.empty,[])
  closed : ∀ ls more, Text.lines text = ls ++ more → Ends g ls →
    arguments g text = scanned g (joined ['\n'] ls) ∧
      arguments g (joined ['\n'] ls) = arguments g text ∧
      ∀ other, arguments g (joined ['\n'] ls ++ '\n' :: other) = arguments g text

theorem leadingAgrees {g : CommentGrammar} (kind : g ∈ [.markdown,.python,.c]) {text : List Char}
    (plain : '\r' ∉ text) : Agrees g text := by
  have solid := CommentGrammar.solid kind
  constructor
  · rw [argumentsComment, scanned]
    cases search : (Scanner.ofText g (joined ['\n'] (comment g (Text.lines text)))).nextOpening.1 with
    | none => exact .inl rfl
    | some opening =>
        have filled : comment g (Text.lines text) ≠ [] := by
          intro none
          rw [none, firstOpening, Cursor.nextOpeningStop rfl] at search
          cases search
        obtain ⟨blanks,more,whole,each,cut⟩ := commentPlaced plain filled
        obtain ⟨opening',found,same⟩ := firstWithin solid (unlinesBlank each) search cut
        rw [← whole] at found
        exact .inr ⟨opening',found,by rw [same]⟩
  · intro other
    rw [argumentsComment, commentMissing other]
    exact scannedNil g
  · intro ls more whole ends
    have lines : ∀ line ∈ ls, Text.OneLine line := by
      intro line member c inside
      have here : line ∈ Text.lines text := whole ▸ List.mem_append_left more member
      exact ⟨fun feed => Text.linesHold here (feed ▸ inside),
        fun back => plain (back ▸ Text.linesMember here inside)⟩
    obtain ⟨last,stop,spelled⟩ := endsLast ends
    have filled : ls ≠ [] := List.ne_nil_of_mem (List.mem_of_getLast? stop)
    have alone := Text.linesJoined lines stop spelled
    -- the comment ends in the same line of each text, and is scanned alone in each
    refine ⟨argumentsEnds solid ends whole,?_,?_⟩
    · rw [argumentsEnds solid ends whole]
      exact argumentsEnds solid ends (alone.trans (List.append_nil ls).symm)
    · intro other
      rw [argumentsEnds solid ends whole]
      exact argumentsEnds solid ends (Text.linesOnward lines filled other)

def quotedLines : List (List Char) :=
  ["","  ","\x22\x22\x22","MD+:META","title = 'Py'","\x22\x22\x22"].map String.toList

theorem quotedAgrees :
    CommentGrammar.python ∈ [CommentGrammar.markdown,.python,.c] ∧ '\r' ∉ unlines quotedLines ∧
    Agrees .python (unlines quotedLines) ∧ Ends .python quotedLines ∧
    arguments .python (unlines quotedLines) = Arguments.parseNoticed "\ntitle = 'Py'\n" ∧
    ∀ other, arguments .python (joined ['\n'] quotedLines ++ '\n' :: other) =
      arguments .python (unlines quotedLines) := by
  have plain : '\r' ∉ unlines quotedLines := by decide
  have agrees := leadingAgrees (g := .python) (by decide) plain
  have ends : Ends .python quotedLines :=
    .blank (by decide) (.blank (by decide) (@Ends.later _ _ _ _ CommentGrammar.tripleDouble
      ["MD+:META".toList,"title = 'Py'".toList] rfl (by decide) (by decide) (by decide)))
  obtain ⟨same,_,kept⟩ := agrees.closed quotedLines [] (by decide) ends
  have search : (Cursor.nextOpening .python 0 (joined ['\n'] quotedLines)).2.map (·.arguments) =
      some "\ntitle = 'Py'\n".toList := by decide +kernel
  obtain ⟨found,first,raw⟩ := Option.map_eq_some_iff.mp search
  refine ⟨by decide,plain,agrees,ends,?_,kept⟩
  rw [same, scannedRaw, first]
  dsimp only
  rw [raw]
  rfl

end DocBlocks.Leading
