import DocBlocks.Markdown.LineStart
import DocBlocks.Markdown.Reference

/-!
Containers of a document: quotes, list items and footnotes. Each claims a prefix of every line that it holds,
and the rest of the line is for what stands in it.
-/
namespace DocBlocks.Markdown

inductive Container where
  | quote
  | item (width : Nat) (isFresh : Bool)
  | footnote (label : List Char)
  deriving DecidableEq, Repr

namespace Container

def quoteRest? (cursor : Cursor) : Option Cursor :=
  let cursor := cursor.skipBlanks
  if cursor.rest.head? = some '>' then some ((cursor.skipMarks 1).skipColumns 1) else none

def resume? (container : Container) (cursor : Cursor) : Option (Container × Cursor) :=
  match container with
  | .quote => if cursor.indent < codeIndent then (quoteRest? cursor).map (.quote, ·) else none
  | .item width isFresh =>
      if cursor.isBlank then if isFresh then none else some (.item width false, cursor.skipColumns width)
      else if width ≤ cursor.indent then some (.item width false, cursor.skipColumns width)
      else none
  | .footnote label =>
      if cursor.isBlank then some (.footnote label, cursor)
      else if codeIndent ≤ cursor.indent then some (.footnote label, cursor.skipColumns codeIndent)
      else none

def resume (cursor : Cursor) : List Container → List Container × Cursor
  | [] => ([], cursor)
  | container :: inner =>
      match container.resume? cursor with
      | none => ([], cursor)
      | some (container, cursor) =>
          let (kept, cursor) := resume cursor inner
          (container :: kept, cursor)

def itemMark? (breaksIn : Bool) (s : List Char) : Option Nat :=
  let digits := s.takeWhile Char.isDigit
  match digits, s.drop digits.length with
  | [], c :: _ => if (c == '*' || c == '+' || c == '-') && !LineStart.isRule s then some 1 else none
  | digits, c :: _ =>
      if (c == '.' || c == ')') && digits.length ≤ 9 && (!breaksIn || digits = ['1']) then some (digits.length + 1)
      else none
  | _, [] => none

/-- The list item that begins at a cursor, and the rest of its line. Without content, it does not break into
a paragraph; content far to the right of the mark is code, and then the item is one column wider than its
mark. -/
def item? (breaksIn : Bool) (cursor : Cursor) : Option (Container × Cursor) := do
  let indent := cursor.indent
  let mark ← itemMark? breaksIn cursor.skipBlanks.rest
  let behind := cursor.skipBlanks.skipMarks mark
  if behind.isBlank then
    if breaksIn then none else some (.item (indent + mark + 1) true, behind)
  else
    let gap := behind.indent
    let gap := if codeIndent < gap then 1 else gap
    if gap = 0 then none else some (.item (indent + mark + gap) false, behind.skipColumns gap)

def footnote? (cursor : Cursor) : Option (Container × Cursor) := do
  let start := cursor.skipBlanks
  match start.rest with
  | '[' :: '^' :: inside =>
      let (label, behind) ← footnoteLabel? inside
      if behind.head? = some ':' then
        some (.footnote label, (start.skipMarks (start.rest.length - behind.length + 1)).skipBlanks)
      else none
  | _ => none

def begin? (breaksIn : Bool) (cursor : Cursor) : Option (Container × Cursor) :=
  if codeIndent ≤ cursor.indent then none
  else ((quoteRest? cursor).map (.quote, ·)) <|> item? breaksIn cursor <|> footnote? cursor

def begin (fuel : Nat) (breaksIn : Bool) (cursor : Cursor) : List Container × Cursor :=
  match fuel with
  | 0 => ([], cursor)
  | fuel + 1 =>
      match begin? breaksIn cursor with
      | none => ([], cursor)
      | some (container, cursor) =>
          let (inner, cursor) := begin fuel false cursor
          (container :: inner, cursor)

end Container

end DocBlocks.Markdown
