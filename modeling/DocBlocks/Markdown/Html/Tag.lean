import DocBlocks.Markdown.Line

/-!
Raw HTML inside a text: tags, comments, instructions, declarations and character data sections.

A reader of this module is a function from what is left of a text to what is left behind the thing read,
or to nothing when the thing does not stand there.
-/
namespace DocBlocks.Markdown.Html

abbrev Reader := List Char → Option (List Char)

def char (expected : Char) : Reader
  | c :: rest => if c = expected then some rest else none
  | [] => none

def literal : List Char → Reader
  | [], s => some s
  | c :: cs, s => char c s >>= literal cs

def through (mark : List Char) : Reader
  | [] => none
  | c :: rest => if mark.isPrefixOf (c :: rest) then some ((c :: rest).drop mark.length) else through mark rest

def skipSpaces (s : List Char) : List Char := s.dropWhile fun c => isSpace c || isLineEnd c

def name : List Char → Option (List Char × List Char)
  | c :: rest =>
      if c.isAlpha then
        some ((c :: rest).span fun d => d.isAlphanum || d == '-')
      else none
  | [] => none

def attributeValue : Reader
  | '"' :: rest => through ['"'] rest
  | '\x27' :: rest => through ['\x27'] rest
  | s =>
      let isBare (c : Char) := !(isSpace c || isLineEnd c || "\"'=<>\x60".toList.contains c)
      if s.head?.any isBare then some (s.dropWhile isBare) else none

def setting : Reader
  | c :: rest =>
      if c.isAlpha || c == ':' || c == '_' then
        let rest := rest.dropWhile fun d => d.isAlphanum || "-.:_".toList.contains d
        match skipSpaces rest with
        | '=' :: value => attributeValue (skipSpaces value)
        | _ => some rest
      else none
  | [] => none

def attributes (fuel : Nat) (s : List Char) : Option (List Char) :=
  match fuel with
  | 0 => some s
  | fuel + 1 =>
      let next := skipSpaces s
      if next.length < s.length && next.head?.any (fun c => c.isAlpha || c == ':' || c == '_') then
        setting next >>= attributes fuel
      else some s

def openingEnd (s : List Char) : Option (List Char) := do
  let rest ← attributes s.length s
  match skipSpaces rest with
  | '/' :: rest => char '>' rest
  | rest => char '>' rest

def closingEnd (s : List Char) : Option (List Char) := char '>' (skipSpaces s)

def inline : Reader
  | '<' :: '!' :: '-' :: '-' :: rest =>
      match rest with
      | '>' :: rest => some rest
      | '-' :: '>' :: rest => some rest
      | _ => through "-->".toList rest
  | '<' :: '!' :: '[' :: rest => literal "CDATA[".toList rest >>= through "]]>".toList
  | '<' :: '!' :: c :: rest => if c.isAlpha then through ['>'] rest else none
  | '<' :: '?' :: rest => through "?>".toList rest
  | '<' :: '/' :: rest => do closingEnd (← name rest).2
  | '<' :: rest => do openingEnd (← name rest).2
  | _ => none

example : inline "<a href='x'>y".toList = some ['y'] := by cbv
example : inline "<a b='c'd>".toList = none := by cbv

end DocBlocks.Markdown.Html
