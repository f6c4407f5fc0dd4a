/-!
Lines of a Markdown document, and what is left of a line behind the prefixes that its containers claim.

A line ends at a line feed, at a carriage return or at both together. Indentation is measured in columns: a
tab reaches to the next multiple of four, and a prefix may take a part of a tab, whose other columns then
stand as blanks.
-/
namespace DocBlocks.Markdown

structure Line where
  body : List Char
  ending : List Char
  deriving DecidableEq, Repr

namespace Line

def ofText (text : List Char) : List Line := go [] text
where
  go (seen : List Char) : List Char → List Line
    | [] => if seen.isEmpty then [] else [⟨seen.reverse, []⟩]
    | '\r' :: '\n' :: rest => ⟨seen.reverse, ['\r', '\n']⟩ :: go [] rest
    | '\r' :: rest => ⟨seen.reverse, ['\r']⟩ :: go [] rest
    | '\n' :: rest => ⟨seen.reverse, ['\n']⟩ :: go [] rest
    | c :: rest => go (c :: seen) rest

def text (lines : List Line) : List Char := lines.flatMap fun line => line.body ++ line.ending

end Line

def isSpace (c : Char) : Bool := c == ' ' || c == '\t'

def isLineEnd (c : Char) : Bool := c == '\n' || c == '\r'

def tabWidth (column : Nat) : Nat := 4 - column % 4

structure Cursor where
  column : Nat
  rest : List Char
  deriving DecidableEq, Repr

namespace Cursor

def ofLine (line : Line) : Cursor := ⟨0, line.body⟩

def isBlank (c : Cursor) : Bool := c.rest.all isSpace

def indent (c : Cursor) : Nat := go c.column c.rest
where
  go (column : Nat) : List Char → Nat
    | ' ' :: rest => 1 + go (column + 1) rest
    | '\t' :: rest => tabWidth column + go (column + tabWidth column) rest
    | _ => 0

def skipColumns (columns : Nat) (c : Cursor) : Cursor := go columns c.column c.rest
where
  go (columns column : Nat) : List Char → Cursor
    | ' ' :: rest => if columns = 0 then ⟨column, ' ' :: rest⟩ else go (columns - 1) (column + 1) rest
    | '\t' :: rest =>
        if columns = 0 then ⟨column, '\t' :: rest⟩
        else if tabWidth column ≤ columns then
          go (columns - tabWidth column) (column + tabWidth column) rest
        else ⟨column + columns, List.replicate (tabWidth column - columns) ' ' ++ rest⟩
    | rest => ⟨column, rest⟩

def skipBlanks (c : Cursor) : Cursor := c.skipColumns c.indent

def skipMarks (count : Nat) (c : Cursor) : Cursor := ⟨c.column + count, c.rest.drop count⟩

end Cursor

def codeIndent : Nat := 4

example : (Line.ofText "a\r\nb\rc".toList).map Line.body = ["a".toList, "b".toList, "c".toList] := by decide
example : (Cursor.mk 0 "\ta".toList).skipColumns 1 = ⟨1, "   a".toList⟩ := by decide

end DocBlocks.Markdown
