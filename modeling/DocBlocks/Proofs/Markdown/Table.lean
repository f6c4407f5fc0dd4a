import DocBlocks.Markdown.Summary
import DocBlocks.Markdown.Table
import DocBlocks.Proofs.Text.Lines

/-! A table has a line for its header, one under it and one for each row just when no cell holds a line
feed: pipes are escaped in a cell, line feeds are not. A summary is one line. -/
namespace DocBlocks.Markdown

variable {headers : List String} {rows : List (List String)} {cells : List (List Char)}
  {widths : List Nat}

theorem escapeFeed (cell : String) : '\n' ∈ escapeCell cell ↔ '\n' ∈ cell.toList := by
  unfold escapeCell
  rw [List.mem_flatMap]
  constructor
  · intro ⟨c,member,inside⟩
    split at inside
    · simp at inside
    · rwa [List.mem_singleton.mp inside]
  · intro member
    exact ⟨'\n',member,by simp⟩

theorem padFeed (cell : List Char) (width : Nat) : '\n' ∈ pad cell width ↔ '\n' ∈ cell := by
  simp [pad, List.mem_append, List.mem_replicate]

theorem rowFeed (cells : List (List Char)) : '\n' ∈ row cells ↔ ∃ cell ∈ cells, '\n' ∈ cell := by
  constructor
  · intro member
    have inside : '\n' ∈ Text.joined [' ','|',' '] cells := by simpa [row] using member
    exact (Text.joinedMember inside).resolve_left (by decide)
  · intro ⟨cell,inside,member⟩
    exact List.mem_append_left _ (List.mem_append_right _ (Text.memberJoined _ inside member))

/- Padding leaves a cell out only where there is no width for it. -/
theorem paddedFeed (fits : cells.length ≤ widths.length) :
    '\n' ∈ row (List.zipWith pad cells widths) ↔ ∃ cell ∈ cells, '\n' ∈ cell := by
  rw [rowFeed]
  induction cells generalizing widths with
  | nil => simp
  | cons cell cells ih =>
      cases widths with
      | nil => cases fits
      | cons width widths =>
          have later := ih (Nat.le_of_succ_le_succ fits)
          simp only [List.zipWith_cons_cons, List.exists_mem_cons_iff, padFeed, later]

theorem widthsLength {headers : List (List Char)} {rows : List (List (List Char))}
    (full : ∀ cells ∈ rows, cells.length = headers.length) :
    (Markdown.widths headers rows).length = headers.length := by
  have each (widths : List Nat) (start : widths.length = headers.length) :
      (rows.foldl (fun widths row => List.zipWith (fun width cell => max width cell.length) widths row)
        widths).length = headers.length := by
    induction rows generalizing widths with
    | nil => exact start
    | cons cells rows ih =>
        obtain ⟨first,later⟩ := List.forall_mem_cons.mp full
        refine ih later _ ?_
        rw [List.length_zipWith, start, first, Nat.min_self]
  exact each _ (List.length_map _)

def columnWidths (headers : List String) (rows : List (List String)) : List Nat :=
  Markdown.widths (headers.map String.toList) (rows.map (·.map escapeCell))

theorem columnsLength (full : ∀ cells ∈ rows, cells.length = headers.length) :
    (columnWidths headers rows).length = headers.length := by
  refine (widthsLength fun cells member => ?_).trans (List.length_map _)
  obtain ⟨row,inside,rfl⟩ := List.mem_map.mp member
  rw [List.length_map, List.length_map, full row inside]

def line (widths : List Nat) (cells : List String) : List Char :=
  row (List.zipWith pad (cells.map escapeCell) widths)

def head (headers : List String) (widths : List Nat) : List (List Char) :=
  [row (List.zipWith pad (headers.map String.toList) widths),
    row (widths.map fun width => List.replicate width '-')]

theorem tableParts (headers : List String) (rows : List (List String)) :
    tableLines headers rows = head headers (columnWidths headers rows) ++
      rows.map (line (columnWidths headers rows)) := by
  unfold tableLines
  dsimp only
  rw [List.map_map]
  rfl

theorem lineFeed {cells : List String} (fits : cells.length ≤ widths.length) :
    '\n' ∈ line widths cells ↔ ∃ cell ∈ cells, '\n' ∈ cell.toList := by
  rw [line, paddedFeed (by rwa [List.length_map])]
  simp only [List.mem_map, exists_exists_and_eq_and, escapeFeed]

theorem headFeed (plain : ∀ header ∈ headers, '\n' ∉ header.toList) (fits : headers.length ≤ widths.length) :
    ∀ line ∈ head headers widths, '\n' ∉ line := by
  refine List.forall_mem_cons.mpr ⟨?_,List.forall_mem_singleton.mpr ?_⟩
  · rw [paddedFeed (by rwa [List.length_map])]
    intro ⟨cell,member,feed⟩
    obtain ⟨header,inside,rfl⟩ := List.mem_map.mp member
    exact plain header inside feed
  · rw [rowFeed]
    intro ⟨cell,member,feed⟩
    obtain ⟨width,_,rfl⟩ := List.mem_map.mp member
    exact absurd (List.eq_of_mem_replicate feed) (by decide)

theorem tableCut (plain : ∀ header ∈ headers, '\n' ∉ header.toList)
    (full : ∀ cells ∈ rows, cells.length = headers.length) :
    let cut := Text.pieces (· == '\n') (table headers rows).toList
    (cut.length = 2 + rows.length ↔ ∀ cells ∈ rows, ∀ cell ∈ cells, '\n' ∉ cell.toList) ∧
      (cut.length = 2 + rows.length → cut = tableLines headers rows) := by
  have length : (tableLines headers rows).length = 2 + rows.length := by
    rw [tableParts, List.length_append, List.length_map]
    rfl
  have filled : tableLines headers rows ≠ [] := nofun
  have parts := @Text.piecesParts (· == '\n') '\n' rfl _ filled
  have whole : (∀ part ∈ tableLines headers rows, ∀ d ∈ part, (d == '\n') = false) ↔
      ∀ part ∈ tableLines headers rows, '\n' ∉ part := by
    refine forall₂_congr fun part _ => ⟨fun free feed => ?_,fun free d member => ?_⟩
    · exact absurd (free '\n' feed) (by decide)
    · exact beq_false_of_ne fun same => free (same ▸ member)
  have wide := columnsLength full
  have fits (cells : List String) (member : cells ∈ rows) :
      cells.length ≤ (columnWidths headers rows).length :=
    Nat.le_of_eq ((full cells member).trans wide.symm)
  dsimp only [table]
  rw [String.toList_ofList, ← length, parts]
  refine ⟨?_,Text.piecesJoined rfl filled⟩
  rw [whole, tableParts, List.forall_mem_append]
  constructor
  · intro ⟨_,free⟩ cells member cell inside feed
    exact free _ (List.mem_map_of_mem member) ((lineFeed (fits cells member)).mpr ⟨cell,inside,feed⟩)
  · intro free
    refine ⟨headFeed plain (Nat.le_of_eq wide.symm),List.forall_mem_map.mpr fun cells member feed => ?_⟩
    obtain ⟨cell,inside,feed⟩ := (lineFeed (fits cells member)).mp feed
    exact free cells member cell inside feed

theorem firstLineHolds {text line : List Char} (found : firstLine? text = some line) : '\n' ∉ line := by
  obtain ⟨whole,member,rfl⟩ := List.mem_map.mp (List.mem_of_find?_eq_some found)
  exact fun feed => Text.linesHold member (Text.trimMember feed)

theorem summaryHolds {text : List Char} {summary : String} (found : summary? text = some summary) :
    '\n' ∉ summary.toList := by
  have outline (o : Outline) (source? : Passage → Option (List Char)) {line : List Char}
      (first : o.firstLine? source? = some line) : '\n' ∉ line := by
    obtain ⟨source,_,shown⟩ := List.exists_of_findSome?_eq_some first
    exact firstLineHolds shown
  obtain ⟨line,first,rfl⟩ := Option.map_eq_some_iff.mp found
  rw [Option.orElse_eq_orElse, Option.orElse_eq_or, Option.or_eq_some_iff] at first
  rw [String.toList_ofList]
  rcases first with paragraph | ⟨_,heading⟩
  · exact outline _ _ paragraph
  · exact outline _ _ heading

end DocBlocks.Markdown
