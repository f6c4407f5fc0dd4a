/-!
White space and lines of a text, seen as its list of characters.

White space is the Unicode property `White_Space`. A line ends at a line feed, and a carriage return
right before that line feed belongs to the line's end; an empty last line does not count.
-/
namespace DocBlocks.Text

def isBlank (c : Char) : Bool :=
  let n := c.toNat
  (0x09 ≤ n && n ≤ 0x0D) || n == 0x20 || n == 0x85 || n == 0xA0 || n == 0x1680 ||
    (0x2000 ≤ n && n ≤ 0x200A) || n == 0x2028 || n == 0x2029 || n == 0x202F ||
    n == 0x205F || n == 0x3000

def isIndent (c : Char) : Bool := c == ' ' || c == '\t'

def isBlankText (s : List Char) : Bool := s.all isBlank

def trimStart (s : List Char) : List Char := s.dropWhile isBlank

def trimEnd (s : List Char) : List Char := (s.reverse.dropWhile isBlank).reverse

def trim (s : List Char) : List Char := trimEnd (trimStart s)

def pieces (p : Char → Bool) (s : List Char) : List (List Char) := go [] s
where
  go (seen : List Char) : List Char → List (List Char)
    | [] => [seen.reverse]
    | c :: rest => if p c then seen.reverse :: go [] rest else go (c :: seen) rest

def dropReturn (line : List Char) : List Char :=
  match line.reverse with
  | '\r' :: rest => rest.reverse
  | _ => line

def ofPieces : List (List Char) → List (List Char)
  | [] => []
  | [last] => if last.isEmpty then [] else [last]
  | line :: rest => dropReturn line :: ofPieces rest

def lines (s : List Char) : List (List Char) := ofPieces (pieces (· == '\n') s)

def joined (separator : List Char) (parts : List (List Char)) : List Char :=
  separator.intercalate parts

example : lines "a\r\n\nb\r".toList = ["a".toList, [], "b\r".toList] := by decide
example : lines "a\n".toList = ["a".toList] := by decide

end DocBlocks.Text
