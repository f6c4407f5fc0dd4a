import DocBlocks.Proofs.Text.Pieces

/-! Lines, white space at the ends of a text, and texts that hold no comment delimiter outside
quotes. -/
namespace DocBlocks.Text

theorem piecesAppend {p : Char → Bool} {text : List Char} {c : Char} (inside : ∀ d ∈ text, p d = false)
    (cut : p c = true) (rest : List Char) : pieces p (text ++ c :: rest) = text :: pieces p rest := by
  rw [piecesAtCut cut, piecesWhole inside]
  rfl

theorem piecesMember {p : Char → Bool} {text : List Char} {c : Char} (member : c ∈ text) :
    p c = true ∨ ∃ piece ∈ pieces p text, c ∈ piece := by
  induction text with
  | nil => cases member
  | cons d text ih =>
      cases kind : p d with
      | true =>
          rw [piecesCut kind]
          rcases List.mem_cons.mp member with rfl | later
          · exact .inl kind
          · exact (ih later).imp_right fun ⟨piece,inside,found⟩ =>
              ⟨piece,List.mem_cons_of_mem _ inside,found⟩
      | false =>
          obtain ⟨first,rest,whole,_⟩ := piecesGo p [] text
          rw [piecesPlain kind whole]
          rw [whole] at ih
          rcases List.mem_cons.mp member with rfl | later
          · exact .inr ⟨_,List.mem_cons_self,List.mem_cons_self⟩
          · rcases ih later with cut | ⟨piece,inside,found⟩
            · exact .inl cut
            · rcases List.mem_cons.mp inside with rfl | other
              · exact .inr ⟨_,List.mem_cons_self,List.mem_cons_of_mem _ found⟩
              · exact .inr ⟨piece,List.mem_cons_of_mem _ other,found⟩

theorem dropReturnNone {line : List Char} (other : ∀ c ∈ line, c ≠ '\r') : dropReturn line = line := by
  unfold dropReturn
  split
  · rename_i same
    have member : '\r' ∈ line := List.mem_reverse.mp (by rw [same]; exact List.mem_cons_self)
    exact absurd rfl (other _ member)
  · rfl

theorem ofPiecesAppend {before : List (List Char)} (plain : ∀ line ∈ before, '\r' ∉ line)
    {after : List (List Char)} (filled : after ≠ []) :
    ofPieces (before ++ after) = before ++ ofPieces after := by
  induction before with
  | nil => rfl
  | cons line before ih =>
      have kept : dropReturn line = line :=
        dropReturnNone fun c member same => plain line List.mem_cons_self (same ▸ member)
      rw [List.cons_append, ofPieces, kept, ih fun other member =>
        plain other (List.mem_cons_of_mem _ member)]
      · rfl
      · exact List.append_ne_nil_of_right_ne_nil before filled

theorem dropReturnMember {line : List Char} {c : Char} (member : c ∈ dropReturn line) : c ∈ line := by
  unfold dropReturn at member
  split at member
  · rename_i rest same
    refine List.mem_reverse.mp ?_
    rw [same]
    exact List.mem_cons_of_mem _ (List.mem_reverse.mp member)
  · exact member

theorem ofPiecesMember {c : Char} {pieces : List (List Char)} {line : List Char}
    (found : line ∈ ofPieces pieces) (member : c ∈ line) : ∃ piece ∈ pieces, c ∈ piece := by
  induction pieces with
  | nil => cases found
  | cons piece rest ih =>
      cases rest with
      | nil =>
          rw [ofPieces] at found
          split at found
          · cases found
          · exact ⟨piece,by simp,List.mem_singleton.mp found ▸ member⟩
      | cons next rest =>
          rw [ofPieces] at found
          · rcases List.mem_cons.mp found with rfl | later
            · exact ⟨piece,List.mem_cons_self,dropReturnMember member⟩
            · obtain ⟨other,inside,here⟩ := ih later
              exact ⟨other,List.mem_cons_of_mem _ inside,here⟩
          · simp

theorem piecesFeed (text : List Char) : joined ['\n'] (pieces (· == '\n') text) = text :=
  joinedPieces (by simp) text

theorem linesMember {text line : List Char} {c : Char} (inside : line ∈ lines text)
    (member : c ∈ line) : c ∈ text := by
  obtain ⟨piece,cut,here⟩ := ofPiecesMember inside member
  rw [← piecesFeed text]
  exact memberJoined _ cut here

theorem linesHold {text line : List Char} (member : line ∈ lines text) : '\n' ∉ line := by
  intro feed
  obtain ⟨piece,cut,inside⟩ := ofPiecesMember member feed
  exact absurd (piecesHold cut _ inside) (by decide)

theorem trimMember {text : List Char} {c : Char} (member : c ∈ trim text) : c ∈ text := by
  have back := (List.dropWhile_sublist isBlank).mem (List.mem_reverse.mp member)
  exact (List.dropWhile_sublist isBlank).mem (List.mem_reverse.mp back)

def unlines (ls : List (List Char)) : List Char := ls.flatMap (· ++ ['\n'])

def OneLine (line : List Char) : Prop := ∀ c ∈ line, c ≠ '\n' ∧ c ≠ '\r'

theorem piecesUnlines {ls : List (List Char)} (each : ∀ line ∈ ls, OneLine line) :
    pieces (· == '\n') (unlines ls) = ls ++ [[]] := by
  induction ls with
  | nil => rfl
  | cons line ls ih =>
      have inside : ∀ c ∈ line, (c == '\n') = false := by
        intro c member
        simpa using (each line (by simp) c member).1
      rw [unlines, List.flatMap_cons, List.append_assoc, List.singleton_append,
        piecesAppend inside rfl]
      rw [unlines] at ih
      rw [ih fun line member => each line (by simp [member])]
      rfl

theorem linesUnlines {ls : List (List Char)} (each : ∀ line ∈ ls, OneLine line) :
    lines (unlines ls) = ls := by
  rw [lines, piecesUnlines each, ofPiecesAppend _ (List.cons_ne_nil _ _)]
  · exact List.append_nil ls
  · exact fun line member back => (each line member _ back).2 rfl

theorem joinedAppend (before : List (List Char)) {after : List (List Char)} (filled : after ≠ []) :
    joined ['\n'] (before ++ after) = unlines before ++ joined ['\n'] after := by
  induction before with
  | nil => rfl
  | cons line before ih =>
      obtain ⟨next,more,same⟩ :=
        List.exists_cons_of_ne_nil (List.append_ne_nil_of_right_ne_nil before filled)
      rw [List.cons_append, same, joined, List.intercalate_cons_cons, ← joined, ← same, ih, unlines,
        unlines, List.flatMap_cons, List.append_assoc (line ++ ['\n'])]

theorem unlinesJoined {ls : List (List Char)} (filled : ls ≠ []) :
    unlines ls = joined ['\n'] ls ++ ['\n'] := by
  rw [← List.dropLast_append_getLast filled, joinedAppend _ (List.cons_ne_nil _ _)]
  simp [unlines, joined]

theorem linesWhole {text : List Char} (plain : '\r' ∉ text) :
    text = joined ['\n'] (lines text) ∨ text = joined ['\n'] (lines text) ++ ['\n'] := by
  have whole := piecesFeed text
  have each : ∀ piece ∈ pieces (· == '\n') text, '\r' ∉ piece :=
    fun piece cut member => plain (whole ▸ memberJoined _ cut member)
  obtain ⟨first,more,filled,_⟩ := piecesGo (· == '\n') [] text
  obtain ⟨before,last,same⟩ : ∃ before last, pieces (· == '\n') text = before ++ [last] :=
    ⟨_,_,(List.dropLast_append_getLast (filled ▸ List.cons_ne_nil first more)).symm⟩
  rw [same] at whole each
  have cut : lines text = before ++ ofPieces [last] := by
    rw [lines, same]
    exact ofPiecesAppend (fun line member => each line (List.mem_append_left _ member))
      (List.cons_ne_nil _ _)
  cases last with
  | cons c last => exact .inl (by rw [cut]; exact whole.symm)
  | nil =>
      rw [cut, ofPieces, List.isEmpty_nil, if_pos rfl, List.append_nil]
      cases before with
      | nil => exact .inl whole.symm
      | cons line before =>
          refine .inr ?_
          rw [← unlinesJoined (List.cons_ne_nil _ _), ← whole, joinedAppend _ (List.cons_ne_nil _ _)]
          exact List.append_nil _

section

variable {ls : List (List Char)} (each : ∀ line ∈ ls, OneLine line)

include each

theorem joinedCut (filled : ls ≠ []) : pieces (· == '\n') (joined ['\n'] ls) = ls :=
  piecesJoined rfl filled fun line member c inside => by simpa using (each line member c inside).1

theorem linesOnward (filled : ls ≠ []) (other : List Char) :
    lines (joined ['\n'] ls ++ '\n' :: other) = ls ++ lines other := by
  obtain ⟨first,more,some',_⟩ := piecesGo (· == '\n') [] other
  rw [lines, piecesAtCut rfl, joinedCut each filled]
  refine ofPiecesAppend (fun line member back => (each line member _ back).2 rfl) ?_
  exact some' ▸ List.cons_ne_nil first more

theorem linesJoined {last : List Char} (ends : ls.getLast? = some last) (solid : last ≠ []) :
    lines (joined ['\n'] ls) = ls := by
  obtain ⟨before,rfl⟩ := List.getLast?_eq_some_iff.mp ends
  rw [lines, joinedCut each (by simp), ofPiecesAppend _ (List.cons_ne_nil _ _)]
  · rw [ofPieces, if_neg (by simpa using solid)]
  · intro line member back
    exact (each line (List.mem_append_left _ member) _ back).2 rfl

end

theorem trimNone {c : Char} {text : List Char} (first : isBlank c = false)
    (last : ∃ d, (c :: text).getLast? = some d ∧ isBlank d = false) : trim (c :: text) = c :: text := by
  have start : trimStart (c :: text) = c :: text := by simp [trimStart, first]
  obtain ⟨d,ends,other⟩ := last
  obtain ⟨front,whole⟩ := List.getLast?_eq_some_iff.mp ends
  rw [trim, start, trimEnd, whole]
  simp [other]

theorem trimBlank {text : List Char} (blank : isBlankText text = true) : trim text = [] := by
  have start : trimStart text = [] := by
    rw [isBlankText, List.all_eq_true] at blank
    induction text with
    | nil => rfl
    | cons c text ih =>
        rw [trimStart, List.dropWhile_cons_of_pos (blank c (by simp))]
        exact ih fun c member => blank c (by simp [member])
  rw [trim, start]
  rfl

def Fenced (text : List Char) : Prop := ∀ p q, text = p ++ '<' :: q → '"' ∈ q

theorem fencedPlain {text : List Char} (plain : '<' ∉ text) : Fenced text := by
  rintro p q rfl
  exact absurd (List.mem_append_right p List.mem_cons_self) plain

theorem fencedAppend {a b : List Char} (first : Fenced a) (second : Fenced b) : Fenced (a ++ b) := by
  intro p q same
  rcases List.append_eq_append_iff.mp same with ⟨gap,rfl,rest⟩ | ⟨gap,rfl,rest⟩
  · exact second gap q rest
  · cases gap with
    | nil => exact second [] q (by simpa using rest.symm)
    | cons c gap =>
        obtain ⟨rfl,rfl⟩ := List.cons.inj rest
        exact List.mem_append_left b (first p gap rfl)

theorem fencedQuoted (text : List Char) : Fenced (text ++ ['"']) := by
  intro p q same
  rcases List.append_eq_append_iff.mp same with ⟨gap,rfl,rest⟩ | ⟨gap,rfl,rest⟩
  · cases gap with
    | nil => cases rest
    | cons c gap => simp at rest
  · cases gap with
    | nil => cases rest
    | cons c gap =>
        obtain ⟨rfl,rfl⟩ := List.cons.inj rest
        simp

end DocBlocks.Text
