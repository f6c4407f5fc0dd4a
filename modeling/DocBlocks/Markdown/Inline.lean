import DocBlocks.Markdown.Autolink
import DocBlocks.Markdown.Emphasis
import DocBlocks.Markdown.Entity.Reference
import DocBlocks.Markdown.Reference

/-!
The text of a paragraph or heading as a reader sees it: without the marks of emphasis, links and code, with
escapes and character references resolved. Images, hard line breaks and references to footnotes show no text.

The source is read once from left to right. What has been read is a list of pieces, last piece first; each
bracket that is still open keeps the pieces before it.
-/
namespace DocBlocks.Markdown

inductive BracketKind where
  | link | image | footnote
  deriving DecidableEq, Repr

def BracketKind.marks : BracketKind → List Char
  | .link => ['[']
  | .image => ['!', '[']
  | .footnote => ['[', '^']

structure Bracket where
  kind : BracketKind
  active : Bool
  start : Nat
  before : List Piece
  deriving DecidableEq, Repr

namespace Bracket

def literal (bracket : Bracket) (pieces : List Piece) : List Piece :=
  pieces ++ .chars bracket.kind.marks :: bracket.before

def linkLength? (labels : Labels) (isDefined : Bool) (rest : List Char) : Option Nat :=
  let plain := if isDefined then some 0 else none
  match rest with
  | '(' :: inside =>
      match resourceEnd? inside with
      | some behind => some (rest.length - behind.length)
      | none => plain
  | '[' :: inside =>
      match label? inside with
      | some (label, behind) => if labels.hasLink label then some (rest.length - behind.length) else none
      | none => if isDefined && inside.head? = some ']' then some 2 else none
  | _ => plain

def meaning? (bracket : Bracket) (labels : Labels) (label rest : List Char) (pieces : List Piece) :
    Option (Nat × List Char) :=
  match bracket.kind with
  | .footnote =>
      if labels.hasFootnote label then some (0, [])
      else
        (linkLength? labels (labels.hasLink ('^' :: label)) rest).map fun count =>
          (count, '^' :: plainText pieces.reverse)
  | .link => (linkLength? labels (labels.hasLink label) rest).map fun count => (count, plainText pieces.reverse)
  | .image => (linkLength? labels (labels.hasLink label) rest).map fun count => (count, [])

def disable (bracket : Bracket) : Bracket :=
  if bracket.kind = .image then bracket else { bracket with active := false }

end Bracket

structure Inline where
  pieces : List Piece := []
  brackets : List Bracket := []
  deriving DecidableEq, Repr

namespace Inline

def chars (cs : List Char) (read : Inline) : Inline := { read with pieces := .chars cs :: read.pieces }

def openBracket (kind : BracketKind) (start : Nat) (read : Inline) : Inline :=
  ⟨[], ⟨kind, true, start, read.pieces⟩ :: read.brackets⟩

def finish (read : Inline) : List Piece :=
  (read.brackets.foldl (fun pieces bracket => bracket.literal pieces) read.pieces).reverse

def closeBracket (labels : Labels) (source : List Char) (place : Nat) (rest : List Char) (read : Inline) :
    Inline × Nat :=
  match read.brackets with
  | [] => (read.chars [']'], 0)
  | bracket :: outer =>
      let label := (source.drop bracket.start).take (place - bracket.start)
      let meaning := if bracket.active then bracket.meaning? labels label rest read.pieces else none
      match meaning with
      | none => (⟨.chars [']'] :: bracket.literal read.pieces, outer⟩, 0)
      | some (count, shown) =>
          let outer := if bracket.kind = .image then outer else outer.map Bracket.disable
          (⟨.chars shown :: bracket.before, outer⟩, count)

def markRun (mark : Char) (size : Nat) (previous next : Option Char) : MarkRun :=
  let before := Neighbour.of previous
  let after := Neighbour.of next
  let left := after = .other || (after = .punctuation && before != .other)
  let right := before = .other || (before = .punctuation && after != .other)
  if mark = '_' then ⟨mark, size, left && (before != .other || !right), right && (after != .other || !left)⟩
  else ⟨mark, size, left, right⟩

def runLength (c : Char) (s : List Char) : Nat := (s.takeWhile (· == c)).length

def code? (size : Nat) (seen : List Char) (run : Nat) : List Char → Option (List Char)
  | [] => if run = size then some (seen.drop size).reverse else none
  | c :: rest =>
      if c = '\x60' then code? size (c :: seen) (run + 1) rest
      else if run = size then some (seen.drop size).reverse
      else code? size (c :: seen) 0 rest

def codeText (code : List Char) : List Char :=
  if code.head? = some ' ' && code.getLast? = some ' ' && code.any (· != ' ') then code.tail.dropLast else code

def breakLength : List Char → Nat
  | '\r' :: '\n' :: rest => 2 + (rest.takeWhile isSpace).length
  | _ :: rest => 1 + (rest.takeWhile isSpace).length
  | [] => 0

def readBlanks (s : List Char) (read : Inline) : Inline × Nat :=
  let blanks := s.takeWhile isSpace
  match s.drop blanks.length with
  | [] => (read, blanks.length)
  | c :: rest =>
      if !isLineEnd c then (read.chars blanks, blanks.length)
      else
        -- two or more spaces before a line end make a hard break
        let isHard := 2 ≤ blanks.length && blanks.all (· == ' ')
        (if isHard then read else read.chars ((c :: rest).takeWhile isLineEnd),
          blanks.length + breakLength (c :: rest))

def readEscape (rest : List Char) (read : Inline) : Inline × Nat :=
  match rest with
  | [] => (read.chars ['\\'], 1)
  | c :: _ =>
      if isMark c then (read.chars [c], 2)
      else if isLineEnd c then (read, 1 + breakLength rest)
      else (read.chars ['\\'], 1)

def readCode (s : List Char) (read : Inline) : Inline × Nat :=
  let size := runLength '\x60' s
  match code? size [] 0 (s.drop size) with
  | some code => (read.chars (codeText code), code.length + 2 * size)
  | none => (read.chars (s.take size), size)

def readAngle (s : List Char) (read : Inline) : Inline × Nat :=
  match Autolink.bracketed? (s.drop 1) with
  | some address => (read.chars address, address.length + 2)
  | none =>
      match Html.inline s with
      | some rest => (read.chars (s.take (s.length - rest.length)), s.length - rest.length)
      | none => (read.chars ['<'], 1)

def readAddress (previous : Option Char) (c : Char) (rest : List Char) (read : Inline) : Inline × Nat :=
  match Autolink.bareLength? previous (c :: rest) with
  | some count => (read.chars ((c :: rest).take count), count)
  | none => (read.chars [c], 1)

def step (labels : Labels) (source : List Char) (place : Nat) (previous : Option Char) (c : Char)
    (rest : List Char) (read : Inline) : Inline × Nat :=
  if isSpace c then readBlanks (c :: rest) read
  else if isLineEnd c then (read.chars ((c :: rest).takeWhile isLineEnd), breakLength (c :: rest))
  else if c = '\\' then readEscape rest read
  else if c = '&' then
    match Entity.read? rest with
    | some (cs, count) => (read.chars cs, count + 1)
    | none => (read.chars [c], 1)
  else if c = '\x60' then readCode (c :: rest) read
  else if c = '<' then readAngle (c :: rest) read
  else if c = '!' then
    if rest.head? = some '[' && rest.tail.head? != some '^' then (read.openBracket .image (place + 2), 2)
    else (read.chars [c], 1)
  else if c = '[' then
    if rest.head? = some '^' then (read.openBracket .footnote (place + 2), 2)
    else (read.openBracket .link (place + 1), 1)
  else if c = ']' then
    let (read, count) := read.closeBracket labels source place rest
    (read, count + 1)
  else if c = '*' || c = '_' || c = '~' then
    let size := runLength c (c :: rest)
    let next := ((c :: rest).drop size).head?
    ({ read with pieces := .run (markRun c size previous next) :: read.pieces }, size)
  else if c = 'h' || c = 'H' || c = 'w' || c = 'W' then readAddress previous c rest read
  else (read.chars [c], 1)

def scan (labels : Labels) (source : List Char) (place taken : Nat) (previous : Option Char) :
    List Char → Inline → Inline
  | [], read => read
  | c :: rest, read =>
      match taken with
      | taken + 1 => scan labels source (place + 1) taken (some c) rest read
      | 0 =>
          let (read, count) := read.step labels source place previous c rest
          scan labels source (place + 1) (count - 1) (some c) rest read

def text (labels : Labels) (source : List Char) : List Char :=
  let source := source.dropWhile isSpace
  plainText (scan labels source 0 0 none source {}).finish

end Inline

end DocBlocks.Markdown
