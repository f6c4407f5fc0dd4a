import DocBlocks.Block.Scanner
import DocBlocks.Proofs.Text.Slices

/-! Which stretch of a text a tag, an opening or a block takes, in every grammar. Offsets are those of
the gaps and tags that the text is put together from. -/
namespace DocBlocks.Tag

theorem splitCommandWhole (g : CommentGrammar) (text : List Char) :
    (splitCommand g text).1 ++ (splitCommand g text).2 = text := by
  have from' : ∀ seen : List Char, (splitCommand.go g seen text).1 ++ (splitCommand.go g seen text).2 =
      seen.reverse ++ text := by
    induction text with
    | nil => intro seen; simp [splitCommand.go]
    | cons c text ih =>
        intro seen
        rw [splitCommand.go]
        split
        · rfl
        · simp [ih]
  exact from' []

theorem blanksWhole (text : List Char) : text.takeWhile Text.isBlank ++ Text.trimStart text = text :=
  List.takeWhile_append_dropWhile

theorem takeStop {p : Char → Bool} {a b : List Char} (inside : ∀ c ∈ a, p c = true)
    (after : ∀ c, b.head? = some c → p c = false) :
    (a ++ b).takeWhile p = a ∧ (a ++ b).dropWhile p = b := by
  rw [List.takeWhile_append_of_pos inside, List.dropWhile_append_of_pos inside]
  cases b with
  | nil => simp
  | cons c b => simp [after c rfl]

theorem trimBlanks {blanks text : List Char} (blank : ∀ c ∈ blanks, Text.isBlank c = true)
    (solid : ∀ c, text.head? = some c → Text.isBlank c = false) :
    Text.trimStart (blanks ++ text) = text := (takeStop blank solid).2

theorem openingTaken {g : CommentGrammar} {text : List Char} {tag : Opening} :
    opening? g text = some tag ↔ ∃ named found,
      Text.after? openMark (Text.trimStart text) = some named ∧ (splitCommand g named).1 ≠ [] ∧
      Delimiter.find? g.closers (splitCommand g named).2 = some found ∧
      tag = ⟨(splitCommand g named).1,found.before,Text.size (text.takeWhile Text.isBlank) +
        Text.size openMark + Text.size (splitCommand g named).1 + Text.size found.before +
        found.delimiter.size,found.rest⟩ := by
  unfold opening?
  dsimp only
  cases Text.after? openMark (Text.trimStart text) with
  | none => simp
  | some named =>
      simp only [Option.bind_eq_bind, Option.bind_some, Option.some.injEq, List.isEmpty_iff,
        exists_and_left, exists_eq_left']
      split
      · rename_i empty
        simp [empty]
      · rename_i filled
        cases Delimiter.find? g.closers (splitCommand g named).2 with
        | none => simp
        | some found => simp [filled, eq_comm]

theorem closingTaken {g : CommentGrammar} {command text rest : List Char} {size : Nat} :
    closing? g command text = some (size,rest) ↔ ∃ named ended delimiter,
      Text.after? closeMark (Text.trimStart text) = some named ∧
      Text.after? command named = some ended ∧
      Delimiter.leading? g.closers (Text.trimStart ended) = some (delimiter,rest) ∧
      size = Text.size (text.takeWhile Text.isBlank ++ ended.takeWhile Text.isBlank) +
        Text.size closeMark + Text.size command + delimiter.size := by
  unfold closing?
  simp only [Option.bind_eq_bind, Option.bind_eq_some_iff]
  constructor
  · rintro ⟨named,marked,ended,spelled,⟨delimiter,after⟩,leads,read⟩
    cases read
    exact ⟨named,ended,delimiter,marked,spelled,leads,rfl⟩
  · rintro ⟨named,ended,delimiter,marked,spelled,leads,rfl⟩
    exact ⟨named,marked,ended,spelled,(delimiter,rest),leads,rfl⟩

theorem markedWhole {mark text named : List Char}
    (marked : Text.after? mark (Text.trimStart text) = some named) :
    text = text.takeWhile Text.isBlank ++ (mark ++ named) :=
  calc text = text.takeWhile Text.isBlank ++ Text.trimStart text := (blanksWhole text).symm
    _ = _ := by rw [Text.eq_append_of_after? marked]

theorem namedWhole (g : CommentGrammar) {text named : List Char}
    (marked : Text.after? openMark (Text.trimStart text) = some named) :
    text = text.takeWhile Text.isBlank ++
      (openMark ++ ((splitCommand g named).1 ++ (splitCommand g named).2)) := by
  rw [splitCommandWhole]
  exact markedWhole marked

theorem closedWhole {g : CommentGrammar} {command text named ended rest : List Char} {d : Delimiter}
    (marked : Text.after? closeMark (Text.trimStart text) = some named)
    (spelled : Text.after? command named = some ended)
    (leads : Delimiter.leading? g.closers (Text.trimStart ended) = some (d,rest)) :
    text = text.takeWhile Text.isBlank ++
      (closeMark ++ (command ++ (ended.takeWhile Text.isBlank ++ (d.chars ++ rest)))) := by
  rw [← (Delimiter.eq_append_of_leading? leads).2, blanksWhole,
    ← Text.eq_append_of_after? spelled]
  exact markedWhole marked

theorem openingExtent {g : CommentGrammar} {text : List Char} {tag : Opening}
    (read : opening? g text = some tag) :
    ∃ head, text = head ++ tag.rest ∧ tag.size = Text.size head := by
  obtain ⟨named,found,marked,_,ends,rfl⟩ := openingTaken.mp read
  refine ⟨text.takeWhile Text.isBlank ++ (openMark ++ ((splitCommand g named).1 ++
    (found.before ++ found.delimiter.chars))),?_,?_⟩
  · refine (namedWhole g marked).trans ?_
    rw [Delimiter.eq_append_of_find? ends]
    simp only [List.append_assoc]
  · simp [Delimiter.size, Nat.add_assoc]

theorem closingExtent {g : CommentGrammar} {command text rest : List Char} {size : Nat}
    (read : closing? g command text = some (size,rest)) :
    ∃ foot, text = foot ++ rest ∧ size = Text.size foot := by
  obtain ⟨named,ended,delimiter,marked,spelled,leads,rfl⟩ := closingTaken.mp read
  refine ⟨text.takeWhile Text.isBlank ++ (closeMark ++ (command ++ (ended.takeWhile Text.isBlank ++
    delimiter.chars))),?_,?_⟩
  · refine (closedWhole marked spelled leads).trans ?_
    simp only [List.append_assoc]
  · simp [Delimiter.size, Nat.add_assoc, Nat.add_comm, Nat.add_left_comm]

end DocBlocks.Tag

namespace DocBlocks.Cursor

variable {g : CommentGrammar} {offset : Nat} {text : List Char}

theorem delimiterFilled (d : Delimiter) (text : List Char) : d.chars ++ text ≠ [] := by
  simp [Delimiter.chars]

theorem nextOpeningStop (missed : Delimiter.find? g.openers text = none) :
    nextOpening g offset text = (⟨offset,text⟩,none) := by
  rw [nextOpening]
  split
  · rfl
  · rename_i found
    cases missed.symm.trans found

theorem nextOpeningStep {f : Delimiter.Found}
    (here : Delimiter.find? g.openers text = some f) :
    nextOpening g offset text =
      match Tag.opening? g f.rest with
      | some tag =>
          let next : Cursor :=
            ⟨offset + Text.size f.before + f.delimiter.size + tag.size,tag.rest⟩
          (next,some ⟨tag.command,tag.arguments,offset + Text.size f.before,next⟩)
      | none => nextOpening g (offset + Text.size f.before + f.delimiter.size) f.rest := by
  rw [nextOpening]
  split
  · rename_i missed
    cases here.symm.trans missed
  · rename_i found
    cases here.symm.trans found
    rfl

theorem closingStop {command : List Char}
    (missed : Delimiter.find? g.openers text = none) : closing? g command offset text = none := by
  rw [closing?]
  split
  · rfl
  · rename_i found
    cases missed.symm.trans found

theorem closingStep {command : List Char} {f : Delimiter.Found}
    (here : Delimiter.find? g.openers text = some f) :
    closing? g command offset text =
      match Tag.closing? g command f.rest with
      | some (size,rest) =>
          some (offset + Text.size f.before,
            ⟨offset + Text.size f.before + f.delimiter.size + size,rest⟩)
      | none => closing? g command (offset + Text.size f.before + f.delimiter.size) f.rest := by
  rw [closing?]
  split
  · rename_i missed
    cases here.symm.trans missed
  · rename_i found
    cases here.symm.trans found
    rfl

theorem nextOpeningExtent {after : Cursor} {found : OpeningMatch}
    (search : nextOpening g offset text = (after,some found)) :
    after = found.next ∧ ∃ gap tag, tag ≠ [] ∧ text = gap ++ (tag ++ found.next.rest) ∧
      found.start = offset + Text.size gap ∧ found.next.offset = found.start + Text.size tag := by
  fun_induction nextOpening g offset text with
  | case1 => cases search
  | case2 offset text f here start inside tag read next =>
      obtain ⟨rfl,same⟩ := Prod.mk.inj search
      obtain rfl := Option.some.inj same
      obtain ⟨head,whole,sized⟩ := Tag.openingExtent read
      refine ⟨rfl,f.before,f.delimiter.chars ++ head,delimiterFilled _ _,?_,rfl,?_⟩
      · rw [Delimiter.eq_append_of_find? here, whole]
        simp [next]
      · simp [next, start, inside, sized, Delimiter.size, Nat.add_assoc]
  | case3 offset text f here start inside rejected ih =>
      obtain ⟨same,gap,tag,filled,whole,starts,stops⟩ := ih search
      refine ⟨same,f.before ++ (f.delimiter.chars ++ gap),tag,filled,?_,?_,stops⟩
      · rw [Delimiter.eq_append_of_find? here, whole]
        simp
      · rw [starts]
        simp [start, inside, Delimiter.size, Nat.add_assoc]

theorem nextOpeningMissed {after : Cursor} (search : nextOpening g offset text = (after,none)) :
    (∃ passed, text = passed ++ after.rest ∧ after.offset = offset + Text.size passed) ∧
      nextOpening g after.offset after.rest = (after,none) := by
  fun_induction nextOpening g offset text with
  | case1 offset text here =>
      cases search
      exact ⟨⟨[],rfl,rfl⟩,nextOpeningStop here⟩
  | case2 => exact absurd (Prod.mk.inj search).2 (Option.some_ne_none _)
  | case3 offset text f here start inside rejected ih =>
      obtain ⟨⟨passed,whole,stops⟩,again⟩ := ih search
      refine ⟨⟨f.before ++ (f.delimiter.chars ++ passed),?_,?_⟩,again⟩
      · rw [Delimiter.eq_append_of_find? here, whole]
        simp
      · rw [stops]
        simp [start, inside, Delimiter.size, Nat.add_assoc]

theorem closingExtent {command : List Char} {start : Nat} {after : Cursor}
    (search : closing? g command offset text = some (start,after)) :
    ∃ body foot, foot ≠ [] ∧ text = body ++ (foot ++ after.rest) ∧
      start = offset + Text.size body ∧ after.offset = start + Text.size foot := by
  fun_induction closing? g command offset text with
  | case1 => cases search
  | case2 offset text f here start' inside size rest read =>
      obtain ⟨rfl,rfl⟩ := Prod.mk.inj (Option.some.inj search)
      obtain ⟨foot,whole,sized⟩ := Tag.closingExtent read
      refine ⟨f.before,f.delimiter.chars ++ foot,delimiterFilled _ _,?_,rfl,?_⟩
      · rw [Delimiter.eq_append_of_find? here, whole]
        simp
      · simp [start', inside, sized, Delimiter.size, Nat.add_assoc]
  | case3 offset text f here start' inside rejected ih =>
      obtain ⟨body,foot,filled,whole,starts,stops⟩ := ih search
      refine ⟨f.before ++ (f.delimiter.chars ++ body),foot,filled,?_,?_,stops⟩
      · rw [Delimiter.eq_append_of_find? here, whole]
        simp
      · rw [starts]
        simp [start', inside, Delimiter.size, Nat.add_assoc]

end DocBlocks.Cursor

namespace DocBlocks.Block

variable {g : CommentGrammar} {lines : LineTable} {found : Cursor.OpeningMatch}

theorem ofOpeningExtent (g : CommentGrammar) (lines : LineTable) (found : Cursor.OpeningMatch) :
    (ofOpening g lines found).1.span =
        lines.position found.start (ofOpening g lines found).2.offset ∧
      ∃ inner, found.next.rest = inner ++ (ofOpening g lines found).2.rest ∧
        (ofOpening g lines found).2.offset = found.next.offset + Text.size inner := by
  refine ⟨rfl,?_⟩
  simp only [ofOpening]
  split
  · rename_i closes
    obtain ⟨body,foot,_,whole,starts,stops⟩ := Cursor.closingExtent closes
    refine ⟨body ++ foot,by rw [whole]; simp,?_⟩
    rw [stops, starts]
    simp [Nat.add_assoc]
  · split
    · exact ⟨[],rfl,rfl⟩
    · exact ⟨found.next.rest,by simp [Cursor.atEnd],rfl⟩

theorem closedExtent {closing : Position}
    (closed : (ofOpening g lines found).1.closing = some closing) :
    ∃ body foot, foot ≠ [] ∧
      found.next.rest = body ++ (foot ++ (ofOpening g lines found).2.rest) ∧
      closing = lines.position (found.next.offset + Text.size body)
        (ofOpening g lines found).2.offset ∧
      (ofOpening g lines found).2.offset =
        found.next.offset + Text.size body + Text.size foot := by
  simp only [ofOpening] at closed ⊢
  split
  · rename_i start after closes
    obtain ⟨body,foot,filled,whole,starts,stops⟩ := Cursor.closingExtent closes
    rw [closes] at closed
    obtain rfl := Option.some.inj closed
    exact ⟨body,foot,filled,whole,by rw [starts],by rw [stops, starts]⟩
  · rename_i open'
    rw [open'] at closed
    cases closed

theorem unclosedExtent (open' : (ofOpening g lines found).1.closing = none) :
    (ofOpening g lines found).2 =
      if (ofOpening g lines found).1.isReserved then found.next else found.next.atEnd := by
  simp only [ofOpening, Option.map_eq_none_iff] at open'
  simp only [ofOpening, isReserved, open']

end DocBlocks.Block
