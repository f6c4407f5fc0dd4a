import DocBlocks.Markdown.Container

/-!
The outline of a Markdown document: its paragraphs and headings that stand in no container, in order, and the
labels that it defines anywhere.

A document is read line by line. What is open is a stack of containers and, in the innermost of them, at most
one block that further lines may add to.
-/
namespace DocBlocks.Markdown

inductive OpenBlock where
  | nothing
  | paragraph (lines : List Line)
  | fence (mark : Char) (size : Nat)
  | html (kind : Html.Kind)
  | table
  deriving DecidableEq, Repr

inductive Passage where
  | paragraph (source : List Char)
  | heading (source : List Char)
  deriving DecidableEq, Repr

structure Outline where
  passages : List Passage := []
  labels : Labels := {}
  deriving DecidableEq, Repr

namespace Outline

def addPassage (p : Passage) (o : Outline) : Outline := { o with passages := o.passages ++ [p] }

def addLinks (links : List (List Char)) (o : Outline) : Outline :=
  { o with labels := { o.labels with links := o.labels.links ++ links } }

def addFootnotes (containers : List Container) (o : Outline) : Outline :=
  let found := containers.filterMap fun container =>
    match container with
    | .footnote label => some label
    | _ => none
  { o with labels := { o.labels with footnotes := o.labels.footnotes ++ found } }

end Outline

structure OpenDocument where
  containers : List Container := []
  block : OpenBlock := .nothing
  outline : Outline := {}
  deriving DecidableEq, Repr

namespace OpenDocument

def source : List Line → List Char
  | [] => []
  | last :: before => Line.text before.reverse ++ last.body

def addPassage (p : Passage) (d : OpenDocument) : OpenDocument :=
  if d.containers.isEmpty then { d with outline := d.outline.addPassage p } else d

def endText (passage : List Char → Passage) (lines : List Line) (d : OpenDocument) : OpenDocument :=
  let text := source lines
  let (links, rest) := definitions text.length text
  let d := { d with block := .nothing, outline := d.outline.addLinks links }
  if rest.isEmpty then d else d.addPassage (passage rest)

def isInParagraph (d : OpenDocument) : Bool :=
  match d.block with
  | .paragraph _ => true
  | _ => false

def endBlock (d : OpenDocument) : OpenDocument :=
  match d.block with
  | .paragraph lines => d.endText .paragraph lines
  | _ => { d with block := .nothing }

/-- Ends a paragraph at its underline, which makes it a heading. Where only definitions stand above the
underline, it is the first line of a text instead. -/
def underline (lines : List Line) (line : Line) (d : OpenDocument) : OpenDocument :=
  let text := source lines
  let (_, rest) := definitions text.length text
  let d := d.endText .heading lines
  if rest.isEmpty then { d with block := .paragraph [line] } else d

def beginHtml (kind : Html.Kind) (s : List Char) (d : OpenDocument) : OpenDocument :=
  { d.endBlock with block := if kind.endsIn s then .nothing else .html kind }

def addText (line : Line) (s : List Char) (d : OpenDocument) : OpenDocument :=
  match d.block with
  | .paragraph [] => { d with block := .paragraph [line] }
  | .paragraph (head :: before) =>
      if beginsTable head.body s then
        let d := if before.isEmpty then d else d.endText .paragraph before
        { d with block := .table }
      else { d with block := .paragraph (line :: head :: before) }
  | .table => d
  | _ => { d with block := .paragraph [line] }

def addIndented (line : Line) (d : OpenDocument) : OpenDocument :=
  match d.block with
  | .paragraph lines => { d with block := .paragraph (line :: lines) }
  | _ => d.endBlock

def addStart (line : Line) (s : List Char) (d : OpenDocument) : OpenDocument :=
  match LineStart.of s with
  | .rule => d.endBlock
  | .heading title => d.endBlock.addPassage (.heading title)
  | .fence mark size => { d.endBlock with block := .fence mark size }
  | .html kind => if kind.interrupts || !d.isInParagraph then d.beginHtml kind s else d.addText line s
  | .text => d.addText line s

def addRest (cursor : Cursor) (ending : List Char) (d : OpenDocument) : OpenDocument :=
  let line : Line := ⟨cursor.rest, ending⟩
  let s := cursor.skipBlanks.rest
  if cursor.isBlank then d.endBlock
  else if codeIndent ≤ cursor.indent then d.addIndented line
  else
    match d.block with
    | .paragraph lines => if isUnderline s then d.underline lines line else d.addStart line s
    | _ => d.addStart line s

def addVerbatim? (cursor : Cursor) (d : OpenDocument) : Option OpenDocument :=
  match d.block with
  | .fence mark size =>
      let isEnd := cursor.indent < codeIndent && closesFence mark size cursor.skipBlanks.rest
      some (if isEnd then d.endBlock else d)
  | .html kind =>
      if kind.endsAtBlank && cursor.isBlank || kind.endsIn cursor.rest then some d.endBlock else some d
  | _ => none

def isLazy (cursor : Cursor) (d : OpenDocument) : Bool :=
  d.isInParagraph && !cursor.isBlank &&
    (codeIndent ≤ cursor.indent || (LineStart.of cursor.skipBlanks.rest).continuesText)

def enter (kept begun : List Container) (d : OpenDocument) : OpenDocument :=
  let d := d.endBlock
  { d with containers := kept ++ begun, outline := d.outline.addFootnotes begun }

def addLine (d : OpenDocument) (line : Line) : OpenDocument :=
  let (kept, cursor) := Container.resume (.ofLine line) d.containers
  let isWhole := kept.length == d.containers.length
  let verbatim := if isWhole then { d with containers := kept }.addVerbatim? cursor else none
  match verbatim with
  | some d => d
  | none =>
      match Container.begin (line.body.length + 1) (isWhole && d.isInParagraph) cursor with
      | ([], cursor) =>
          if isWhole then { d with containers := kept }.addRest cursor line.ending
          else if d.isLazy cursor then
            { d with containers := kept ++ d.containers.drop kept.length }.addIndented ⟨cursor.rest, line.ending⟩
          else (d.enter kept []).addRest cursor line.ending
      | (begun, cursor) => (d.enter kept begun).addRest cursor line.ending

end OpenDocument

def dropByteOrderMark : List Char → List Char
  | '\uFEFF' :: rest => rest
  | text => text

def Outline.ofText (text : List Char) : Outline :=
  ((Line.ofText (dropByteOrderMark text)).foldl OpenDocument.addLine {}).endBlock.outline

end DocBlocks.Markdown
