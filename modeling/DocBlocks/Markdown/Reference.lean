import DocBlocks.Markdown.Html.Tag
import DocBlocks.Text.Blank

/-!
What a link leads to: a resource in parentheses, or a label that a definition binds elsewhere. Labels are
compared without regard to the case of their ASCII letters and to the width of the blanks in them.
-/
namespace DocBlocks.Markdown

structure Labels where
  links : List (List Char) := []
  footnotes : List (List Char) := []
  deriving DecidableEq, Repr

def normalLabel (label : List Char) : List Char :=
  let words := (Text.pieces (fun c => isSpace c || isLineEnd c) label).filter fun word => !word.isEmpty
  (Text.joined [' '] words).map Char.toLower

def Labels.hasLink (labels : Labels) (label : List Char) : Bool := labels.links.contains (normalLabel label)

def Labels.hasFootnote (labels : Labels) (label : List Char) : Bool :=
  labels.footnotes.contains (normalLabel label)

def longestLabel : Nat := 999

def label? (s : List Char) : Option (List Char × List Char) := go [] s
where
  go (seen : List Char) : List Char → Option (List Char × List Char)
    | [] => none
    | ']' :: rest =>
        if seen.all (fun c => isSpace c || isLineEnd c) || seen.length > longestLabel then none
        else some (seen.reverse, rest)
    | '[' :: _ => none
    | '\\' :: '[' :: rest => go ('[' :: '\\' :: seen) rest
    | '\\' :: ']' :: rest => go (']' :: '\\' :: seen) rest
    | '\\' :: '\\' :: rest => go ('\\' :: '\\' :: seen) rest
    | c :: rest => go (c :: seen) rest

namespace Destination

def enclosed : Html.Reader
  | [] => none
  | '>' :: rest => some rest
  | '\\' :: c :: rest => if c == '<' || c == '>' || c == '\\' then enclosed rest else enclosed (c :: rest)
  | c :: rest => if c == '<' || isLineEnd c then none else enclosed rest

def bare (limit depth : Nat) : Html.Reader
  | [] => if depth = 0 then some [] else none
  | '\\' :: c :: rest =>
      if c == '(' || c == ')' || c == '\\' then bare limit depth rest else bare limit depth (c :: rest)
  | c :: rest =>
      if depth = 0 && (c == ')' || isSpace c || isLineEnd c) then some (c :: rest)
      else if c == '(' then if depth < limit then bare limit (depth + 1) rest else none
      else if c == ')' then bare limit (depth - 1) rest
      else if c.toNat ≤ 0x20 || c.toNat == 0x7F then none
      else bare limit depth rest

def read (limit : Nat) : Html.Reader
  | [] => none
  | '<' :: rest => enclosed rest
  | c :: rest => if c == ')' || c.toNat ≤ 0x20 || c.toNat == 0x7F then none else bare limit 0 (c :: rest)

end Destination

namespace LinkTitle

def through (mark : Char) : Html.Reader
  | [] => none
  | '\\' :: c :: rest => if c == mark || c == '\\' then through mark rest else through mark (c :: rest)
  | c :: rest => if c == mark then some rest else through mark rest

def read : Html.Reader
  | '"' :: rest => through '"' rest
  | '\x27' :: rest => through '\x27' rest
  | '(' :: rest => through ')' rest
  | _ => none

end LinkTitle

def resourceDepth : Nat := 32

def resourceEnd? (s : List Char) : Option (List Char) :=
  match Html.skipSpaces s with
  | ')' :: rest => some rest
  | s => do
      let rest ← Destination.read resourceDepth s
      let next := Html.skipSpaces rest
      if next.length < rest.length && next.head?.any (fun c => "\"'(".toList.contains c) then
        Html.char ')' (Html.skipSpaces (← LinkTitle.read next))
      else Html.char ')' next

def lineRest? (s : List Char) : Option (List Char) :=
  match s.dropWhile isSpace with
  | [] => some []
  | '\r' :: '\n' :: rest => some rest
  | c :: rest => if isLineEnd c then some rest else none

/-- The label of the definition at the head of a text, and the rest behind it. A title counts if nothing
stands behind it on its line. -/
def definition? (s : List Char) : Option (List Char × List Char) := do
  let (label, rest) ← label? (← Html.char '[' (s.dropWhile isSpace))
  let rest ← Destination.read s.length (Html.skipSpaces (← Html.char ':' rest))
  let next := Html.skipSpaces rest
  let titled := if next.length < rest.length then LinkTitle.read next >>= lineRest? else none
  return (label, ← titled <|> lineRest? rest)

def definitions (fuel : Nat) (s : List Char) : List (List Char) × List Char :=
  match fuel with
  | 0 => ([], s)
  | fuel + 1 =>
      match definition? s with
      | none => ([], s)
      | some (label, rest) =>
          let (labels, rest) := definitions fuel rest
          (normalLabel label :: labels, rest)

def footnoteLabel? (s : List Char) : Option (List Char × List Char) := do
  let (label, rest) ← label? s
  if label.any fun c => isSpace c || isLineEnd c then none else return (normalLabel label, rest)

example : definition? "[a b]: <c> 'd'\ne".toList = some ("a b".toList, ['e']) := by cbv
example : resourceEnd? "x(y) \"t\")z".toList = some ['z'] := by cbv

end DocBlocks.Markdown
