import DocBlocks.Expr.Lexeme
import DocBlocks.Proofs.Expr.Templates

/-! The grammar of expressions by precedence, with the tree that each derivation builds. It has one rule
for each way to form an expression, and names no parser. -/
namespace DocBlocks

def BinaryOp.symbol : BinaryOp → Symbol
  | add => .plus
  | sub => .minus
  | mul => .star
  | div => .slash
  | floorDiv => .doubleSlash
  | mod => .percent
  | pow => .doubleStar

def CompareOp.symbol : CompareOp → Symbol
  | eq => .equal
  | ne => .notEqual
  | lt => .less
  | le => .lessEqual
  | gt => .greater
  | ge => .greaterEqual

def TemplatePart.map {α β : Type} (f : α → β) : TemplatePart α → TemplatePart β
  | text s => text s
  | embedded content => embedded (f content)

namespace Expr

inductive Level where
  | disjunction | conjunction | negation | comparison | sum | product | signed | power | subscripted
  | atom
  deriving DecidableEq

structure Phrase where
  tokens : List Token
  tree : Expr

structure Embedded extends Phrase where
  source : List Char

structure Link extends Phrase where
  op : CompareOp

structure Entry where
  key : Phrase
  value : Phrase

def Link.words (link : Link) : List Token := .symbol link.op.symbol :: link.tokens

def Entry.words (entry : Entry) : List Token :=
  entry.key.tokens ++ .symbol .colon :: entry.value.tokens

inductive Listed : List (List Token) → List Token → Prop where
  | nil : Listed [] []
  | last (words : List Token) : Listed [words] words
  | comma {others rest} (words : List Token) (more : Listed others rest) :
      Listed (words :: others) (words ++ .symbol .comma :: rest)

def reserved : List String :=
  ["true","True","false","False","null","None","and","or","not"]

inductive Derives : Level → List Token → Expr → Prop where
  | conjunction {ts e} (whole : Derives .conjunction ts e) : Derives .disjunction ts e
  | or {ts us left right} (first : Derives .disjunction ts left)
      (second : Derives .conjunction us right) :
      Derives .disjunction (ts ++ .ident "or" :: us) (.or left right)
  | negation {ts e} (whole : Derives .negation ts e) : Derives .conjunction ts e
  | and {ts us left right} (first : Derives .conjunction ts left)
      (second : Derives .negation us right) :
      Derives .conjunction (ts ++ .ident "and" :: us) (.and left right)
  | comparison {ts e} (whole : Derives .comparison ts e) : Derives .negation ts e
  | not {ts e} (operand : Derives .negation ts e) :
      Derives .negation (.ident "not" :: ts) (.unary .not e)
  | sum {ts e} (whole : Derives .sum ts e) : Derives .comparison ts e
  | compare {ts first} {links : List Link} (head : Derives .sum ts first) (filled : links ≠ [])
      (inside : ∀ link ∈ links, Derives .sum link.tokens link.tree) :
      Derives .comparison (ts ++ links.flatMap Link.words)
        (.compare first (links.map fun link => (link.op,link.tree)))
  | product {ts e} (whole : Derives .product ts e) : Derives .sum ts e
  | additive {ts us left right op} (isOp : op = .add ∨ op = .sub) (first : Derives .sum ts left)
      (second : Derives .product us right) :
      Derives .sum (ts ++ .symbol op.symbol :: us) (.binary op left right)
  | signed {ts e} (whole : Derives .signed ts e) : Derives .product ts e
  | multiplicative {ts us left right op} (isOp : op = .mul ∨ op = .div ∨ op = .floorDiv ∨ op = .mod)
      (first : Derives .product ts left) (second : Derives .signed us right) :
      Derives .product (ts ++ .symbol op.symbol :: us) (.binary op left right)
  | power {ts e} (whole : Derives .power ts e) : Derives .signed ts e
  | minus {ts e} (operand : Derives .signed ts e) :
      Derives .signed (.symbol .minus :: ts) (.unary .neg e)
  | plus {ts e} (operand : Derives .signed ts e) :
      Derives .signed (.symbol .plus :: ts) (.unary .pos e)
  | subscripted {ts e} (whole : Derives .subscripted ts e) : Derives .power ts e
  | pow {ts us base exponent} (first : Derives .subscripted ts base)
      (second : Derives .signed us exponent) :
      Derives .power (ts ++ .symbol .doubleStar :: us) (.binary .pow base exponent)
  | atom {ts e} (whole : Derives .atom ts e) : Derives .subscripted ts e
  | index {ts us target place} (first : Derives .subscripted ts target)
      (second : Derives .disjunction us place) :
      Derives .subscripted (ts ++ .symbol .openBracket :: (us ++ [.symbol .closeBracket]))
        (.index target place)
  | int (n : Int64) : Derives .atom [.int n] (.literal (.int n))
  | float (x : Float) : Derives .atom [.float x] (.literal (.float x))
  | strings (s : String) (more : List String) :
      Derives .atom (.string s :: more.map .string) (.literal (.string (String.join (s :: more))))
  | template {s : String} {pieces : List (TemplatePart Embedded)}
      (divides : Template.Divides s.toList (pieces.map (·.map Embedded.source)))
      (scans : ∀ piece, .embedded piece ∈ pieces →
        Token.scanFrom 0 piece.source = .ok piece.tokens)
      (inside : ∀ piece, .embedded piece ∈ pieces →
        Derives .disjunction piece.tokens piece.tree) :
      Derives .atom [.template s] (.template (pieces.map (·.map fun piece => piece.tree)))
  | true {word} (spelled : word ∈ ["true","True"]) :
      Derives .atom [.ident word] (.literal (.bool true))
  | false {word} (spelled : word ∈ ["false","False"]) :
      Derives .atom [.ident word] (.literal (.bool false))
  | null {word} (spelled : word ∈ ["null","None"]) : Derives .atom [.ident word] (.literal .null)
  | name {id} (free : id ∉ reserved) : Derives .atom [.ident id] (.name id)
  | paren {ts e} (inside : Derives .disjunction ts e) :
      Derives .atom (.symbol .openParen :: (ts ++ [.symbol .closeParen])) e
  | list {items : List Phrase} {ts} (listed : Listed (items.map Phrase.tokens) ts)
      (inside : ∀ item ∈ items, Derives .disjunction item.tokens item.tree) :
      Derives .atom (.symbol .openBracket :: (ts ++ [.symbol .closeBracket]))
        (.list (items.map Phrase.tree))
  | map {entries : List Entry} {ts} (listed : Listed (entries.map Entry.words) ts)
      (keys : ∀ entry ∈ entries, Derives .disjunction entry.key.tokens entry.key.tree)
      (values : ∀ entry ∈ entries, Derives .disjunction entry.value.tokens entry.value.tree) :
      Derives .atom (.symbol .openBrace :: (ts ++ [.symbol .closeBrace]))
        (.map (entries.map fun entry => (entry.key.tree,entry.value.tree)))

theorem derivesSum {ts : List Token} {e : Expr} (derives : Derives .sum ts e) :
    Derives .disjunction ts e :=
  .conjunction (.negation (.comparison (.sum derives)))

theorem derivesSigned {ts : List Token} {e : Expr} (derives : Derives .signed ts e) :
    Derives .disjunction ts e :=
  derivesSum (.product (.signed derives))

theorem signedAtom {ts : List Token} {e : Expr} (derives : Derives .atom ts e) : Derives .signed ts e :=
  .power (.subscripted (.atom derives))

theorem derivesAtom {ts : List Token} {e : Expr} (derives : Derives .atom ts e) :
    Derives .disjunction ts e :=
  derivesSigned (signedAtom derives)

end Expr

end DocBlocks
