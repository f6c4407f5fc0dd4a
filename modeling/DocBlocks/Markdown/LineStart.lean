import DocBlocks.Markdown.Html.Block

/-!
What a line of a document begins, seen behind its indentation: a rule, a heading, a fence, a block of HTML, or
none of these and so text. A line may also belong to the text before it, as an underline that makes it a
heading or as the second line of a table.
-/
namespace DocBlocks.Markdown

inductive LineStart where
  | rule
  | heading (text : List Char)
  | fence (mark : Char) (size : Nat)
  | html (kind : Html.Kind)
  | text
  deriving DecidableEq, Repr

namespace LineStart

def isRule (s : List Char) : Bool :=
  match s with
  | c :: _ =>
      (c == '*' || c == '-' || c == '_') && s.all (fun d => d == c || isSpace d) && 3 ≤ s.count c
  | [] => false

def trimRight (s : List Char) : List Char := (s.reverse.dropWhile isSpace).reverse

def headingText (s : List Char) : List Char :=
  let reversed := (trimRight s).reverse
  match reversed.dropWhile (· == '#') with
  | [] => []
  | c :: rest => if isSpace c then trimRight (c :: rest).reverse else reversed.reverse

def heading? (s : List Char) : Option (List Char) :=
  let level := (s.takeWhile (· == '#')).length
  let rest := s.drop level
  if 1 ≤ level && level ≤ 6 && rest.head?.all isSpace then some (headingText (rest.dropWhile isSpace)) else none

def fence? : List Char → Option (Char × Nat)
  | [] => none
  | c :: rest =>
      let size := ((c :: rest).takeWhile (· == c)).length
      if (c == '\x60' && !(rest.drop (size - 1)).contains '\x60' || c == '~') && 3 ≤ size then some (c, size)
      else none

def of (s : List Char) : LineStart :=
  if isRule s then .rule
  else
    match heading? s, fence? s, Html.kind? s with
    | some title, _, _ => .heading title
    | none, some (mark, size), _ => .fence mark size
    | none, none, some kind => .html kind
    | none, none, none => .text

def continuesText : LineStart → Bool
  | .text => true
  | .html kind => !kind.interrupts
  | _ => false

end LineStart

def closesFence (mark : Char) (size : Nat) (s : List Char) : Bool :=
  let marks := s.takeWhile (· == mark)
  size ≤ marks.length && (s.drop marks.length).all isSpace

def isUnderline (s : List Char) : Bool :=
  match LineStart.trimRight s with
  | c :: rest => (c == '=' || c == '-') && rest.all (· == c)
  | [] => false

namespace TableLine

def cells (s : List Char) : List (List Char) := go [] s
where
  go (seen : List Char) : List Char → List (List Char)
    | [] => [seen.reverse]
    | '\\' :: '\\' :: rest => go ('\\' :: '\\' :: seen) rest
    | '\\' :: '|' :: rest => go ('|' :: '\\' :: seen) rest
    | '|' :: rest => seen.reverse :: go [] rest
    | c :: rest => go (c :: seen) rest

def inner (cells : List (List Char)) : List (List Char) :=
  let isEmpty (cell : List Char) := cell.all isSpace
  let cells := if cells.head?.any isEmpty then cells.tail else cells
  if cells.getLast?.any isEmpty then cells.dropLast else cells

def headSize (s : List Char) : Nat := (inner (cells s)).length

def isDelimiter (cell : List Char) : Bool :=
  let cell := LineStart.trimRight (cell.dropWhile isSpace)
  let cell := if cell.head? = some ':' then cell.tail else cell
  let hyphens := cell.takeWhile (· == '-')
  let rest := cell.drop hyphens.length
  !hyphens.isEmpty && (rest == [] || rest == [':'])

/-- How many columns the second line of a table has; none if it is no such line. It holds a bar or a colon,
so that it is no rule or underline. -/
def delimiterSize? (s : List Char) : Option Nat :=
  let delimiters := inner (cells s)
  if s.any (fun c => c == '|' || c == ':') && !delimiters.isEmpty && delimiters.all isDelimiter then
    some delimiters.length
  else none

end TableLine

def beginsTable (head second : List Char) : Bool :=
  match TableLine.delimiterSize? second with
  | some size => TableLine.headSize head == size
  | none => false

example : LineStart.of "# a #".toList = .heading "a".toList := by cbv
example : beginsTable "| a | b".toList ":- | -".toList = true := by cbv

end DocBlocks.Markdown
