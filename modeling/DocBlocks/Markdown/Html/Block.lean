import DocBlocks.Markdown.Html.Tag

/-!
Blocks of HTML: what opens one on a line, and where it ends. Seven kinds are told apart; five end with the line
that holds their end mark, and two end before a blank line.
-/
namespace DocBlocks.Markdown.Html

inductive Kind where
  | raw | comment | instruction | declaration | data | basic | complete
  deriving DecidableEq, Repr

def rawNames : List String := ["pre", "script", "style", "textarea"]

def blockNames : List String :=
  ["address", "article", "aside", "base", "basefont", "blockquote", "body", "caption", "center", "col",
    "colgroup", "dd", "details", "dialog", "dir", "div", "dl", "dt", "fieldset", "figcaption", "figure",
    "footer", "form", "frame", "frameset", "h1", "h2", "h3", "h4", "h5", "h6", "head", "header", "hr", "html",
    "iframe", "legend", "li", "link", "main", "menu", "menuitem", "nav", "noframes", "ol", "optgroup",
    "option", "p", "param", "search", "section", "summary", "table", "tbody", "td", "tfoot", "th", "thead",
    "title", "tr", "track", "ul"]

def isIn (names : List String) (name : List Char) : Bool :=
  names.contains (String.ofList (name.map Char.toLower))

def tagKind? (closing : Bool) (s : List Char) : Option Kind := do
  let (tag, rest) ← name s
  let atEnd : Bool := rest.head?.all fun c => isSpace c || c == '>'
  if !closing && isIn rawNames tag && atEnd then some .raw
  else if isIn blockNames tag && (atEnd || "/>".toList.isPrefixOf rest) then some .basic
  else
    let rest ← if closing then closingEnd rest else openingEnd rest
    if rest.all isSpace then some .complete else none

def kind? : List Char → Option Kind
  | '<' :: '!' :: '-' :: '-' :: _ => some .comment
  | '<' :: '!' :: '[' :: rest => if "CDATA[".toList.isPrefixOf rest then some .data else none
  | '<' :: '!' :: c :: _ => if c.isAlpha then some .declaration else none
  | '<' :: '?' :: _ => some .instruction
  | '<' :: '/' :: rest => tagKind? true rest
  | '<' :: rest => tagKind? false rest
  | _ => none

def Kind.interrupts (kind : Kind) : Bool := kind != .complete

def holds (marks : List (List Char)) (line : List Char) : Bool :=
  marks.any fun mark => (through mark line).isSome

def Kind.endsIn (line : List Char) : Kind → Bool
  | .raw =>
      holds (rawNames.map fun name => "</".toList ++ name.toList ++ ['>']) (line.map Char.toLower)
  | .comment => holds ["-->".toList] line
  | .instruction => holds ["?>".toList] line
  | .declaration => holds [['>']] line
  | .data => holds ["]]>".toList] line
  | .basic | .complete => false

def Kind.endsAtBlank : Kind → Bool
  | .basic | .complete => true
  | _ => false

end DocBlocks.Markdown.Html
