import DocBlocks.Proofs.Markdown.Table
import Mathlib.Data.List.DropRight
import Mathlib.Data.List.Forall2

/-! The cells of a table are read back from its lines. All lines are equally long, and a line that is cut at
its pipes, except those behind a backslash, has one part for each cell, which is its text but for blanks at
the end. -/
namespace DocBlocks.Markdown

/-- The parts of a line between pipes, with what stands before it. A pipe right behind a backslash does not
cut. -/
def cutBehind (escaped : Bool) : List Char → List (List Char)
  | [] => [[]]
  | c :: rest =>
      if c = '|' ∧ !escaped then [] :: cutBehind false rest
      else (cutBehind (c == '\\') rest).modifyHead (c :: ·)

def unescape : List Char → List Char
  | '\\' :: '|' :: rest => '|' :: unescape rest
  | c :: rest => c :: unescape rest
  | [] => []

def dropBlank : List Char → List Char
  | ' ' :: rest => rest
  | part => part

def stripEnd (text : List Char) : List Char := text.rdropWhile (· == ' ')

def cellOf (part : List Char) : List Char := unescape (stripEnd (dropBlank part))

def rowCells (line : List Char) : Option (List (List Char)) :=
  match cutBehind false line with
  | [] :: parts => if parts.getLast? = some [] then some (parts.dropLast.map cellOf) else none
  | _ => none

variable {headers : List String} {rows : List (List String)} {cells parts : List (List Char)}
  {widths : List Nat}

/-! ### The text of a cell -/

theorem unescapePlain {c : Char} (plain : c ≠ '\\') (rest : List Char) :
    unescape (c :: rest) = c :: unescape rest := by
  rw [unescape.eq_def]
  split
  · rename_i same
    exact absurd (List.cons.inj same).1 plain
  · rename_i same
    obtain ⟨rfl,rfl⟩ := List.cons.inj same
    rfl
  · rename_i same
    cases same

theorem unescapeBackslash {rest : List Char} (other : rest.head? ≠ some '|') :
    unescape ('\\' :: rest) = '\\' :: unescape rest := by
  cases rest with
  | nil => rfl
  | cons c rest =>
      have apart : c ≠ '|' := fun same => other (congrArg some same)
      rw [unescape.eq_def]
      split
      · rename_i same
        cases same
        exact absurd rfl apart
      · rename_i same
        obtain ⟨rfl,rfl⟩ := List.cons.inj same
        rfl
      · rename_i same
        cases same

theorem escapeNext (c : Char) (text : List Char) :
    escapeCell (.ofList (c :: text)) =
      (if c = '|' then ['\\','|'] else [c]) ++ escapeCell (.ofList text) := by
  simp only [escapeCell, String.toList_ofList, List.flatMap_cons]

theorem escapeLast (text : List Char) (c : Char) : escapeCell (.ofList (text ++ [c])) =
    (if c = '|' then escapeCell (.ofList text) ++ ['\\'] else escapeCell (.ofList text)) ++ [c] := by
  simp only [escapeCell, String.toList_ofList, List.flatMap_append, List.flatMap_singleton]
  split
  · rename_i pipe
    subst pipe
    exact List.append_cons _ _ _
  · rfl

/- No cell is written with a pipe in front, so that a backslash before it is read as it is. -/
theorem escapeHead (text : List Char) : (escapeCell (.ofList text)).head? ≠ some '|' := by
  cases text with
  | nil => simp [escapeCell]
  | cons c rest =>
      rw [escapeNext]
      split
      · nofun
      · rename_i apart
        exact fun same => apart (Option.some.inj same)

theorem unescapeCell (text : List Char) : unescape (escapeCell (.ofList text)) = text := by
  induction text with
  | nil => simp [escapeCell, unescape]
  | cons c text ih =>
      rw [escapeNext]
      split
      · rename_i pipe
        subst pipe
        exact congrArg ('|' :: ·) ih
      · by_cases backslash : c = '\\'
        · subst backslash
          exact (unescapeBackslash (escapeHead text)).trans (congrArg ('\\' :: ·) ih)
        · exact (unescapePlain backslash _).trans (congrArg (c :: ·) ih)

theorem stripBlank (text : List Char) : stripEnd (text ++ [' ']) = stripEnd text :=
  List.rdropWhile_concat_pos _ _ _ rfl

theorem stripOther {c : Char} (other : c ≠ ' ') (text : List Char) : stripEnd (text ++ [c]) = text ++ [c] :=
  List.rdropWhile_concat_neg _ _ _ (by simpa using other)

theorem stripBlanks (text : List Char) (count : Nat) :
    stripEnd (text ++ List.replicate count ' ') = stripEnd text := by
  induction count with
  | zero => rw [List.replicate_zero, List.append_nil]
  | succ count ih => rw [List.replicate_succ', ← List.append_assoc, stripBlank, ih]

theorem stripEscape (text : List Char) :
    stripEnd (escapeCell (.ofList text)) = escapeCell (.ofList (stripEnd text)) := by
  induction text using List.reverseRecOn with
  | nil => simp [escapeCell, stripEnd]
  | append_singleton text c ih =>
      by_cases blank : c = ' '
      · subst blank
        rw [stripBlank, escapeLast, if_neg (by decide), stripBlank, ih]
      · rw [stripOther blank, escapeLast, stripOther blank]

theorem cellPadded (cell : String) (width : Nat) :
    cellOf (' ' :: (pad (escapeCell cell) width ++ [' '])) = stripEnd cell.toList := by
  obtain ⟨text,rfl⟩ : ∃ text, cell = .ofList text := ⟨cell.toList,String.ofList_toList.symm⟩
  rw [cellOf, dropBlank, pad, List.append_assoc, ← List.replicate_succ', stripBlanks, stripEscape,
    unescapeCell, String.toList_ofList]

/-! ### Cutting a line -/

theorem cutOther {c : Char} (other : c ≠ '|') (behind : Bool) (rest : List Char) :
    cutBehind behind (c :: rest) = (cutBehind (c == '\\') rest).modifyHead (c :: ·) :=
  if_neg fun pipe => other pipe.1

theorem cutEscaped (behind : Bool) (rest : List Char) : cutBehind behind ('\\' :: '|' :: rest) =
    (cutBehind false rest).modifyHead fun part => '\\' :: '|' :: part := by
  rw [cutOther (by decide)]
  change ((cutBehind false rest).modifyHead _).modifyHead _ = _
  rw [List.modifyHead_modifyHead]
  rfl

theorem cutBlank (behind : Bool) (rest : List Char) :
    cutBehind behind (' ' :: rest) = (cutBehind false rest).modifyHead (' ' :: ·) := rfl

theorem cutPipe (rest : List Char) : cutBehind false ('|' :: rest) = [] :: cutBehind false rest := rfl

def Uncut (text : List Char) : Prop := ∀ behind rest, cutBehind behind (text ++ ' ' :: rest) =
  (cutBehind false rest).modifyHead fun part => text ++ ' ' :: part

theorem uncutEscape (text : List Char) : Uncut (escapeCell (.ofList text)) := by
  induction text with
  | nil =>
      rw [escapeCell, String.toList_ofList]
      exact cutBlank
  | cons c text ih =>
      intro behind rest
      rw [escapeNext]
      split
      · change cutBehind behind ('\\' :: '|' :: (escapeCell (.ofList text) ++ ' ' :: rest)) = _
        rw [cutEscaped, ih, List.modifyHead_modifyHead]
        rfl
      · rename_i other
        change cutBehind behind (c :: (escapeCell (.ofList text) ++ ' ' :: rest)) = _
        rw [cutOther other, ih, List.modifyHead_modifyHead]
        rfl

theorem uncutBlank {text : List Char} (uncut : Uncut text) : Uncut (text ++ [' ']) := by
  intro behind rest
  rw [List.append_assoc, List.singleton_append, uncut, cutBlank, List.modifyHead_modifyHead]
  congr 1
  funext part
  simp

theorem uncutPad (cell : String) (width : Nat) : Uncut (pad (escapeCell cell) width) := by
  rw [pad]
  induction width - (escapeCell cell).length with
  | zero =>
      rw [List.replicate_zero, List.append_nil, ← @String.ofList_toList cell]
      exact uncutEscape cell.toList
  | succ count ih =>
      rw [List.replicate_succ', ← List.append_assoc]
      exact uncutBlank ih

theorem cutJoined {cell : List Char} (uncut : ∀ part ∈ cell :: cells, Uncut part) (behind : Bool) :
    cutBehind behind (Text.joined [' ','|',' '] (cell :: cells) ++ [' ','|']) =
      (cell ++ [' ']) :: (cells.map (fun part => ' ' :: (part ++ [' '])) ++ [[]]) := by
  induction cells generalizing cell behind with
  | nil =>
      have here := uncut cell List.mem_cons_self
      rw [Text.joined, List.intercalate_singleton, here behind]
      rfl
  | cons next rest ih =>
      obtain ⟨here,later⟩ := List.forall_mem_cons.mp uncut
      have after := ih later false
      rw [Text.joined, List.intercalate_cons_cons, ← Text.joined, List.append_assoc, List.append_assoc]
      change cutBehind behind (cell ++ ' ' :: '|' :: ' ' ::
        (Text.joined [' ','|',' '] (next :: rest) ++ [' ','|'])) = _
      rw [here, cutPipe, cutBlank, after]
      rfl

theorem rowCut (filled : cells ≠ []) (uncut : ∀ cell ∈ cells, Uncut cell) :
    rowCells (row cells) = some (cells.map fun cell => cellOf (' ' :: (cell ++ [' ']))) := by
  cases cells with
  | nil => exact absurd rfl filled
  | cons cell rest =>
      have cut : cutBehind false (row (cell :: rest)) =
          [] :: ((cell :: rest).map (fun part => ' ' :: (part ++ [' '])) ++ [[]]) := by
        change cutBehind false ('|' :: ' ' ::
          (Text.joined [' ','|',' '] (cell :: rest) ++ [' ','|'])) = _
        rw [cutPipe, cutBlank, cutJoined uncut]
        rfl
      rw [rowCells, cut]
      dsimp only
      rw [if_pos List.getLast?_concat, List.dropLast_concat, List.map_map]
      rfl

theorem paddedCells {cells : List String} (same : cells.length = widths.length) :
    (∀ cell ∈ List.zipWith pad (cells.map escapeCell) widths, Uncut cell) ∧
      (List.zipWith pad (cells.map escapeCell) widths).map (fun cell => cellOf (' ' :: (cell ++ [' ']))) =
        cells.map fun cell => stripEnd cell.toList := by
  induction cells generalizing widths with
  | nil => exact ⟨nofun,rfl⟩
  | cons cell cells ih =>
      cases widths with
      | nil => cases same
      | cons width widths =>
          obtain ⟨uncut,read⟩ := ih (Nat.succ_inj.mp same)
          refine ⟨List.forall_mem_cons.mpr ⟨uncutPad cell width,uncut⟩,?_⟩
          rw [List.map_cons, List.zipWith_cons_cons, List.map_cons, read, cellPadded]
          rfl

theorem lineCells {cells : List String} (filled : cells ≠ []) (same : cells.length = widths.length) :
    rowCells (line widths cells) = some (cells.map fun cell => stripEnd cell.toList) := by
  obtain ⟨uncut,read⟩ := paddedCells same
  rw [line, rowCut ?_ uncut, read]
  cases cells with
  | nil => exact absurd rfl filled
  | cons cell cells =>
      cases widths with
      | nil => cases same
      | cons width widths => exact List.cons_ne_nil _ _

/-! ### The widths of columns -/

abbrev Fits (cells : List (List Char)) (widths : List Nat) : Prop :=
  List.Forall₂ (fun cell width => cell.length ≤ width) cells widths

def widen (widths : List Nat) (row : List (List Char)) : List Nat :=
  List.zipWith (fun width cell => max width cell.length) widths row

theorem widenLength {row : List (List Char)} (same : row.length = widths.length) :
    (widen widths row).length = widths.length := by
  rw [widen, List.length_zipWith, same, Nat.min_self]

theorem fitsWider {row : List (List Char)} (same : row.length = widths.length) (fits : Fits cells widths) :
    Fits cells (widen widths row) := by
  induction fits generalizing row with
  | nil => exact .nil
  | cons within _ ih =>
      cases row with
      | nil => cases same
      | cons cell row =>
          exact .cons (Nat.le_trans within (Nat.le_max_left _ _)) (ih (Nat.succ_inj.mp same))

theorem fitsOwn {row : List (List Char)} (same : row.length = widths.length) :
    Fits row (widen widths row) := by
  induction widths generalizing row with
  | nil =>
      obtain rfl := List.length_eq_zero_iff.mp same
      exact .nil
  | cons width widths ih =>
      cases row with
      | nil => cases same
      | cons cell row => exact .cons (Nat.le_max_right _ _) (ih (Nat.succ_inj.mp same))

theorem rowsFit {rows : List (List (List Char))} (full : ∀ cells ∈ rows, cells.length = widths.length) :
    (∀ cells, Fits cells widths → Fits cells (rows.foldl widen widths)) ∧
      ∀ cells ∈ rows, Fits cells (rows.foldl widen widths) := by
  induction rows generalizing widths with
  | nil => exact ⟨fun _ => id,nofun⟩
  | cons first rows ih =>
      obtain ⟨same,full⟩ := List.forall_mem_cons.mp full
      obtain ⟨wider,rest⟩ := @ih (widen widths first) fun cells member =>
        (full cells member).trans (widenLength same).symm
      exact ⟨fun cells fits => wider cells (fitsWider same fits),
        List.forall_mem_cons.mpr ⟨wider first (fitsOwn same),rest⟩⟩

theorem widthsFit {headers : List (List Char)} {rows : List (List (List Char))}
    (full : ∀ cells ∈ rows, cells.length = headers.length) :
    Fits headers (Markdown.widths headers rows) ∧ ∀ cells ∈ rows, Fits cells (Markdown.widths headers rows) := by
  have start : Fits headers (headers.map fun header => max header.length minimalWidth) := by
    rw [Fits, List.forall₂_map_right_iff, List.forall₂_same]
    exact fun header _ => Nat.le_max_left _ _
  obtain ⟨wider,each⟩ := @rowsFit (headers.map fun header => max header.length minimalWidth) rows
    fun cells member => (full cells member).trans (List.length_map _).symm
  exact ⟨wider headers start,each⟩

theorem padLength {cell : List Char} {width : Nat} (within : cell.length ≤ width) :
    (pad cell width).length = width := by
  rw [pad, List.length_append, List.length_replicate]
  omega

theorem paddedLengths (fits : Fits cells widths) :
    (List.zipWith pad cells widths).map List.length = widths := by
  induction fits with
  | nil => rfl
  | cons within _ ih => rw [List.zipWith_cons_cons, List.map_cons, padLength within, ih]

theorem joinedLength {separator : List Char} (same : cells.map List.length = parts.map List.length) :
    (Text.joined separator cells).length = (Text.joined separator parts).length := by
  induction cells generalizing parts with
  | nil =>
      obtain rfl := List.map_eq_nil_iff.mp same.symm
      rfl
  | cons cell cells ih =>
      cases parts with
      | nil => cases same
      | cons part parts =>
          obtain ⟨here,later⟩ := List.cons.inj same
          have rest := ih later
          cases cells with
          | nil =>
              obtain rfl := List.map_eq_nil_iff.mp later.symm
              rw [Text.joined, Text.joined, List.intercalate_singleton, List.intercalate_singleton]
              exact here
          | cons next cells =>
              cases parts with
              | nil => cases later
              | cons next' parts =>
                  rw [Text.joined, Text.joined, List.intercalate_cons_cons, List.intercalate_cons_cons,
                    ← Text.joined, ← Text.joined]
                  simp only [List.length_append, rest, here]

theorem rowLength (same : cells.map List.length = parts.map List.length) :
    (row cells).length = (row parts).length := by
  rw [row, row, List.length_append, List.length_append, joinedLength same]
  simp only [List.length_append]

structure KeepsCells (headers : List String) (rows : List (List String)) (lines : List (List Char)) : Prop where
  written : (table headers rows).toList = Text.joined ['\n'] lines
  counted : lines.length = 2 + rows.length
  even : ∀ line ∈ lines, ∀ other ∈ lines, line.length = other.length
  read : List.Forall₂ (fun line cells => rowCells line = some (cells.map fun cell => stripEnd cell.toList))
    (lines.drop 2) rows

theorem linesFilled (full : ∀ cells ∈ rows, cells.length = headers.length) :
    ∀ line ∈ tableLines headers rows, ∃ cells, line = row cells ∧
      cells.map List.length = columnWidths headers rows := by
  have same : ∀ cells ∈ rows.map (·.map escapeCell), cells.length = (headers.map String.toList).length := by
    refine List.forall_mem_map.mpr fun cells member => ?_
    rw [List.length_map, List.length_map, full cells member]
  obtain ⟨own,each⟩ := widthsFit same
  rw [tableParts]
  refine List.forall_mem_append.mpr ⟨List.forall_mem_cons.mpr ⟨?_,List.forall_mem_singleton.mpr ?_⟩,
    List.forall_mem_map.mpr fun cells member => ?_⟩
  · exact ⟨_,rfl,paddedLengths own⟩
  · refine ⟨_,rfl,?_⟩
    rw [List.map_map]
    exact (List.map_congr_left fun width _ => List.length_replicate).trans (List.map_id _)
  · exact ⟨_,rfl,paddedLengths (each _ (List.mem_map_of_mem member))⟩

/- A table keeps its cells apart, whatever they hold. -/
theorem tableKeeps (filled : headers ≠ []) (full : ∀ cells ∈ rows, cells.length = headers.length) :
    KeepsCells headers rows (tableLines headers rows) := by
  refine ⟨String.toList_ofList,?_,fun line member other member' => ?_,?_⟩
  · rw [tableParts, List.length_append, List.length_map]
    rfl
  · obtain ⟨cells,rfl,own⟩ := linesFilled full line member
    obtain ⟨cells',rfl,own'⟩ := linesFilled full other member'
    exact rowLength (own.trans own'.symm)
  · rw [tableParts]
    change List.Forall₂ _ (rows.map (Markdown.line (columnWidths headers rows))) rows
    rw [List.forall₂_map_left_iff, List.forall₂_same]
    intro cells member
    have some : cells ≠ [] := by
      rintro rfl
      exact filled (List.length_eq_zero_iff.mp (full [] member).symm)
    exact lineCells some ((full cells member).trans (columnsLength full).symm)

theorem pipesKept :
    let headers := ["Dir","Content"]
    let rows := [["a|b","\\|c\\"],[" é ",""]]
    headers ≠ [] ∧ (∀ cells ∈ rows, cells.length = headers.length) ∧
      table headers rows =
        "| Dir  | Content |\n| ---- | ------- |\n| a\\|b | \\\\|c\\   |\n|  é   |         |" ∧
      KeepsCells headers rows (tableLines headers rows) := by
  intro headers rows
  have full : ∀ cells ∈ rows, cells.length = headers.length := by decide
  exact ⟨by decide,full,by decide,tableKeeps (by decide) full⟩

example : rowCells "| a\\|b | \\\\|c\\   |".toList = some ["a|b".toList,"\\|c\\".toList] := by decide

end DocBlocks.Markdown
