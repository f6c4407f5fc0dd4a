import DocBlocks.Markdown.Inline
import DocBlocks.Markdown.Outline

/-!
The summary of a Markdown document: the first line of its first paragraph, or else of its first heading, that
shows any text.
-/
namespace DocBlocks.Markdown

def firstLine? (text : List Char) : Option (List Char) :=
  ((Text.lines text).map Text.trim).find? fun line => !line.isEmpty

namespace Passage

def paragraph? : Passage → Option (List Char)
  | .paragraph source => some source
  | .heading _ => none

def heading? : Passage → Option (List Char)
  | .heading source => some source
  | .paragraph _ => none

end Passage

def Outline.firstLine? (source? : Passage → Option (List Char)) (o : Outline) : Option (List Char) :=
  (o.passages.filterMap source?).findSome? fun source => Markdown.firstLine? (Inline.text o.labels source)

def summary? (text : List Char) : Option String :=
  let outline := Outline.ofText text
  ((outline.firstLine? Passage.paragraph?) <|> outline.firstLine? Passage.heading?).map String.ofList

end DocBlocks.Markdown
