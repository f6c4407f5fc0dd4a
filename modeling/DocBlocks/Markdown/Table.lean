import DocBlocks.Text.Blank

/-!
Markdown tables with padded columns. A pipe inside a cell is written behind a backslash, so that it does
not end the cell.
-/
namespace DocBlocks.Markdown

def escapeCell (cell : String) : List Char :=
  cell.toList.flatMap fun c => if c = '|' then ['\\', '|'] else [c]

def pad (cell : List Char) (width : Nat) : List Char :=
  cell ++ List.replicate (width - cell.length) ' '

def row (cells : List (List Char)) : List Char :=
  ['|', ' '] ++ Text.joined [' ', '|', ' '] cells ++ [' ', '|']

def minimalWidth : Nat := 3

def widths (headers : List (List Char)) (rows : List (List (List Char))) : List Nat :=
  rows.foldl (fun widths row => List.zipWith (fun width cell => max width cell.length) widths row)
    (headers.map fun header => max header.length minimalWidth)

def tableLines (headers : List String) (rows : List (List String)) : List (List Char) :=
  let headers := headers.map String.toList
  let rows := rows.map (·.map escapeCell)
  let widths := widths headers rows
  row (List.zipWith pad headers widths) ::
    row (widths.map fun width => List.replicate width '-') ::
    rows.map fun cells => row (List.zipWith pad cells widths)

def table (headers : List String) (rows : List (List String)) : String :=
  String.ofList (Text.joined ['\n'] (tableLines headers rows))

end DocBlocks.Markdown
