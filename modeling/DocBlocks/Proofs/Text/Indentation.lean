import DocBlocks.Arguments.Statement
import DocBlocks.Proofs.Text.Lines

/-! Lines that are indented further, or end in a carriage return and a line feed. Removing the common
indentation leaves the same text of them. -/
namespace DocBlocks.Text

/-- A text with something put in front of each of its lines. Behind a last line feed no line begins. -/
def indented (front : List Char) (text : List Char) : List Char := go true text
where
  go : Bool → List Char → List Char
    | _, [] => []
    | starts, c :: rest => (if starts then front else []) ++ c :: go (c == '\n') rest

def returned (text : List Char) : List Char :=
  text.flatMap fun c => if c = '\n' then ['\r','\n'] else [c]

theorem indentIff {c : Char} : isIndent c = true ↔ c = ' ' ∨ c = '\t' := by
  rw [isIndent, Bool.or_eq_true, beq_iff_eq, beq_iff_eq]

theorem linesInduction {P : List Char → Prop} (last : ∀ line, '\n' ∉ line → P line)
    (next : ∀ line rest, '\n' ∉ line → P rest → P (line ++ '\n' :: rest)) (text : List Char) : P text := by
  induction length : text.length using Nat.strongRecOn generalizing text with
  | ind n ih =>
      by_cases feed : '\n' ∈ text
      · obtain ⟨line,rest,rfl,sameLine⟩ := List.eq_append_cons_of_mem feed
        refine next line rest sameLine (ih rest.length ?_ rest rfl)
        rw [← length, List.length_append, List.length_cons]
        omega
      · exact last text feed

theorem feedless {line : List Char} (sameLine : '\n' ∉ line) : ∀ c ∈ line, (c == '\n') = false := by
  intro c member
  rw [beq_eq_false_iff_ne]
  rintro rfl
  exact sameLine member

theorem linesNext {line : List Char} (rest : List Char) (sameLine : '\n' ∉ line) :
    lines (line ++ '\n' :: rest) = dropReturn line :: lines rest := by
  obtain ⟨first,more,filled,_⟩ := piecesGo (· == '\n') [] rest
  rw [lines, piecesAppend (feedless sameLine) rfl, lines, filled, ofPieces]
  exact List.cons_ne_nil _ _

theorem linesLast {line : List Char} (sameLine : '\n' ∉ line) :
    lines line = if line.isEmpty then [] else [line] := by
  rw [lines, piecesWhole (feedless sameLine), ofPieces]

theorem dropReturnEnd (line : List Char) (c : Char) :
    dropReturn (line ++ [c]) = if c = '\r' then line else line ++ [c] := by
  unfold dropReturn
  rw [List.reverse_append, List.reverse_singleton, List.singleton_append]
  split
  · rename_i same
    obtain ⟨rfl,rfl⟩ := List.cons.inj same
    rw [if_pos rfl, List.reverse_reverse]
  · rename_i other
    exact (if_neg fun same => other line.reverse (by rw [same])).symm

theorem dropReturnFront {front : List Char} (plain : '\r' ∉ front) (line : List Char) :
    dropReturn (front ++ line) = front ++ dropReturn line := by
  rcases List.eq_nil_or_concat line with rfl | ⟨line,c,rfl⟩
  · rw [List.append_nil, dropReturnNone fun c member same => plain (same ▸ member)]
    exact (List.append_nil front).symm
  · rw [List.concat_eq_append, ← List.append_assoc, dropReturnEnd, dropReturnEnd]
    split
    · rfl
    · exact List.append_assoc _ _ _

section

variable {front : List Char}

theorem indentedInside {line : List Char} (rest : List Char) (sameLine : '\n' ∉ line) :
    indented.go front false (line ++ rest) = line ++ indented.go front false rest := by
  induction line with
  | nil => rfl
  | cons c line ih =>
      rw [List.mem_cons, not_or] at sameLine
      rw [List.cons_append, indented.go, beq_eq_false_iff_ne.mpr (Ne.symm sameLine.1), ih sameLine.2]
      rfl

theorem indentedNext {line : List Char} (rest : List Char) (sameLine : '\n' ∉ line) :
    indented front (line ++ '\n' :: rest) = (front ++ line) ++ '\n' :: indented front rest := by
  cases line with
  | nil =>
      rw [List.nil_append, List.append_nil]
      rfl
  | cons c line =>
      rw [List.mem_cons, not_or] at sameLine
      rw [indented, List.cons_append, indented.go, beq_eq_false_iff_ne.mpr (Ne.symm sameLine.1),
        indentedInside _ sameLine.2, if_pos rfl, List.append_assoc]
      rfl

theorem indentedLast {line : List Char} (sameLine : '\n' ∉ line) (filled : line ≠ []) :
    indented front line = front ++ line := by
  cases line with
  | nil => exact absurd rfl filled
  | cons c line =>
      rw [List.mem_cons, not_or] at sameLine
      have inside := @indentedInside front line [] sameLine.2
      rw [List.append_nil] at inside
      rw [indented, indented.go, beq_eq_false_iff_ne.mpr (Ne.symm sameLine.1), inside, if_pos rfl]
      simp [indented.go]

theorem linesIndented (oneLine : OneLine front) (text : List Char) :
    lines (indented front text) = (lines text).map (front ++ ·) := by
  have noFeed : '\n' ∉ front := fun member => (oneLine _ member).1 rfl
  have noReturn : '\r' ∉ front := fun member => (oneLine _ member).2 rfl
  have both {line : List Char} (sameLine : '\n' ∉ line) : '\n' ∉ front ++ line := by
    simp [noFeed, sameLine]
  induction text using linesInduction with
  | last line sameLine =>
      cases line with
      | nil => rfl
      | cons c line =>
          rw [indentedLast sameLine (List.cons_ne_nil _ _), linesLast (both sameLine), linesLast sameLine]
          simp
  | next line rest sameLine ih =>
      rw [indentedNext rest sameLine, linesNext _ (both sameLine), linesNext rest sameLine, ih,
        dropReturnFront noReturn]
      rfl

example : indented [' '] "a\n\nb\n".toList = " a\n \n b\n".toList := by decide

theorem linesReturned {text : List Char} (plain : '\r' ∉ text) : lines (returned text) = lines text := by
  have inside {line : List Char} (sameLine : '\n' ∉ line) : returned line = line := by
    induction line with
    | nil => rfl
    | cons c line ih =>
        rw [List.mem_cons, not_or] at sameLine
        rw [returned, List.flatMap_cons, if_neg (Ne.symm sameLine.1), ← returned, ih sameLine.2]
        rfl
  induction text using linesInduction with
  | last line sameLine => rw [inside sameLine]
  | next line rest sameLine ih =>
      rw [List.mem_append, List.mem_cons, not_or, not_or] at plain
      have ended : returned (line ++ '\n' :: rest) = (line ++ ['\r']) ++ '\n' :: returned rest := by
        rw [returned, List.flatMap_append, ← returned, inside sameLine, List.append_assoc]
        rfl
      have kept : dropReturn line = line :=
        dropReturnNone fun c member same => plain.1 (same ▸ member)
      rw [ended, linesNext _ (by simp [sameLine]), linesNext rest sameLine, ih plain.2.2,
        dropReturnEnd, if_pos rfl, kept]

variable (blanks : ∀ c ∈ front, isIndent c = true)

include blanks

theorem indentOneLine : OneLine front := by
  intro c member
  rcases indentIff.mp (blanks c member) with rfl | rfl <;> decide

theorem frontBlank : isBlankText front = true := by
  refine List.all_eq_true.mpr fun c member => ?_
  rcases indentIff.mp (blanks c member) with rfl | rfl <;> rfl

theorem indentationFront (line : List Char) :
    indentation (front ++ line) = front.length + indentation line := by
  rw [indentation, indentation, List.takeWhile_append_of_pos blanks, List.length_append]

theorem commonFront (ls : List (List Char)) (solid : ∃ line ∈ ls, isBlankText line = false) :
    commonIndentation (ls.map (front ++ ·)) = front.length + commonIndentation ls := by
  have kept : ((fun line => !isBlankText line) ∘ (front ++ ·)) = fun line => !isBlankText line := by
    funext line
    rw [Function.comp_apply, isBlankText, List.all_append, ← isBlankText, frontBlank blanks]
    rfl
  unfold commonIndentation
  rw [List.find?_map, kept]
  cases found : ls.find? (fun line => !isBlankText line) with
  | some line => exact indentationFront blanks line
  | none =>
      obtain ⟨line,member,other⟩ := solid
      have blank := List.find?_eq_none.mp found line member
      simp [other] at blank

theorem unindentFront (width : Nat) (line : List Char) :
    unindent (front.length + width) (front ++ line) = unindent width line := by
  rw [unindent, indentationFront blanks, Nat.add_min_add_left, ← List.drop_drop, List.drop_left]
  rfl

theorem dedentIndented {text : List Char} (solid : ∃ line ∈ lines text, isBlankText line = false) :
    dedent (indented front text) = dedent text := by
  simp only [dedent, linesIndented (indentOneLine blanks), commonFront blanks _ solid, List.map_map,
    Function.comp_def, unindentFront blanks]

end

theorem dedentBlank {text : List Char} (blank : ∀ line ∈ lines text, isBlankText line = true) :
    isBlankText (dedent text) = true := by
  refine List.all_eq_true.mpr fun c member => ?_
  rcases joinedMember member with feed | ⟨line,found,inside⟩
  · exact List.mem_singleton.mp feed ▸ rfl
  · obtain ⟨whole,listed,rfl⟩ := List.mem_map.mp found
    exact List.all_eq_true.mp (blank whole listed) c (List.mem_of_mem_drop inside)

end DocBlocks.Text
