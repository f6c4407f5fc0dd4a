import DocBlocks.Expr.Basic
import DocBlocks.Expr.Lexeme
import DocBlocks.Expr.Template

/-!
Parsing expressions from tokens, one function a level of precedence.

From weakest to strongest: `or`, `and`, `not`, chains of comparisons, `+ -`, `* / // %`, signs, `**`,
subscripts, atoms. Every function takes at least one token, or none if it only continues what stands
before; the result says so, which is why parsing ends.
-/
namespace DocBlocks

abbrev Parsed (α : Type) (tokens : List Token) : Type :=
  Except ExprError (α × { rest : List Token // rest.length < tokens.length })

abbrev Continued (α : Type) (tokens : List Token) : Type :=
  Except ExprError (α × { rest : List Token // rest.length ≤ tokens.length })

namespace Parse

def symbol (s : Symbol) (expected : String) : (tokens : List Token) → Parsed Unit tokens
  | [] => .error (.unexpectedEnd expected)
  | token :: rest =>
      if token = .symbol s then .ok ((), ⟨rest, by simp⟩)
      else .error (.unexpectedToken token.text expected)

def adjacent (s : String) : (tokens : List Token) →
    String × { rest : List Token // rest.length ≤ tokens.length }
  | .string next :: rest =>
      match adjacent (s ++ next) rest with
      | (text, ⟨rest, h⟩) => (text, ⟨rest, by simp; omega⟩)
  | tokens => (s, ⟨tokens, Nat.le_refl _⟩)

def compareOp? : Token → Option CompareOp
  | .symbol .equal => some .eq
  | .symbol .notEqual => some .ne
  | .symbol .less => some .lt
  | .symbol .lessEqual => some .le
  | .symbol .greater => some .gt
  | .symbol .greaterEqual => some .ge
  | _ => none

def sumOp? : Token → Option BinaryOp
  | .symbol .plus => some .add
  | .symbol .minus => some .sub
  | _ => none

def productOp? : Token → Option BinaryOp
  | .symbol .star => some .mul
  | .symbol .slash => some .div
  | .symbol .doubleSlash => some .floorDiv
  | .symbol .percent => some .mod
  | _ => none

def word (name : String) : Except ExprError Expr :=
  if name ∈ ["true", "True"] then .ok (.literal (.bool true))
  else if name ∈ ["false", "False"] then .ok (.literal (.bool false))
  else if name ∈ ["null", "None"] then .ok (.literal .null)
  else if name ∈ ["and", "or", "not"] then .error (.unexpectedToken name "an expression")
  else .ok (.name name)

section
variable (template : String → Except ExprError (List (TemplatePart Expr)))

mutual

def disjunction (tokens : List Token) : Parsed Expr tokens := do
  let (left, ⟨rest, h⟩) ← conjunction tokens
  let (e, ⟨rest', h'⟩) ← disjunctionTail left rest
  return (e, ⟨rest', by omega⟩)
termination_by (tokens.length, 12)

def disjunctionTail (left : Expr) (tokens : List Token) : Continued Expr tokens :=
  match tokens with
  | .ident "or" :: rest => do
      let (right, ⟨rest', h⟩) ← conjunction rest
      let (e, ⟨rest'', h'⟩) ← disjunctionTail (.or left right) rest'
      return (e, ⟨rest'', by simp; omega⟩)
  | tokens => .ok (left, ⟨tokens, Nat.le_refl _⟩)
termination_by (tokens.length, 0)

def conjunction (tokens : List Token) : Parsed Expr tokens := do
  let (left, ⟨rest, h⟩) ← negation tokens
  let (e, ⟨rest', h'⟩) ← conjunctionTail left rest
  return (e, ⟨rest', by omega⟩)
termination_by (tokens.length, 11)

def conjunctionTail (left : Expr) (tokens : List Token) : Continued Expr tokens :=
  match tokens with
  | .ident "and" :: rest => do
      let (right, ⟨rest', h⟩) ← negation rest
      let (e, ⟨rest'', h'⟩) ← conjunctionTail (.and left right) rest'
      return (e, ⟨rest'', by simp; omega⟩)
  | tokens => .ok (left, ⟨tokens, Nat.le_refl _⟩)
termination_by (tokens.length, 0)

def negation (tokens : List Token) : Parsed Expr tokens :=
  match tokens with
  | .ident "not" :: rest => do
      let (operand, ⟨rest', h⟩) ← negation rest
      return (.unary .not operand, ⟨rest', by simp; omega⟩)
  | tokens => comparison tokens
termination_by (tokens.length, 10)

def comparison (tokens : List Token) : Parsed Expr tokens := do
  let (first, ⟨rest, h⟩) ← sum tokens
  let (links, ⟨rest', h'⟩) ← comparisonLinks rest
  return (if links.isEmpty then first else .compare first links, ⟨rest', by omega⟩)
termination_by (tokens.length, 9)

def comparisonLinks (tokens : List Token) : Continued (List (CompareOp × Expr)) tokens :=
  match tokens with
  | [] => .ok ([], ⟨[], by simp⟩)
  | token :: rest =>
      match compareOp? token with
      | some op => do
          let (right, ⟨rest', h⟩) ← sum rest
          let (links, ⟨rest'', h'⟩) ← comparisonLinks rest'
          return ((op, right) :: links, ⟨rest'', by simp; omega⟩)
      | none => .ok ([], ⟨token :: rest, Nat.le_refl _⟩)
termination_by (tokens.length, 0)

def sum (tokens : List Token) : Parsed Expr tokens := do
  let (left, ⟨rest, h⟩) ← product tokens
  let (e, ⟨rest', h'⟩) ← sumTail left rest
  return (e, ⟨rest', by omega⟩)
termination_by (tokens.length, 8)

def sumTail (left : Expr) (tokens : List Token) : Continued Expr tokens :=
  match tokens with
  | [] => .ok (left, ⟨[], by simp⟩)
  | token :: rest =>
      match sumOp? token with
      | some op => do
          let (right, ⟨rest', h⟩) ← product rest
          let (e, ⟨rest'', h'⟩) ← sumTail (.binary op left right) rest'
          return (e, ⟨rest'', by simp; omega⟩)
      | none => .ok (left, ⟨token :: rest, Nat.le_refl _⟩)
termination_by (tokens.length, 0)

def product (tokens : List Token) : Parsed Expr tokens := do
  let (left, ⟨rest, h⟩) ← signed tokens
  let (e, ⟨rest', h'⟩) ← productTail left rest
  return (e, ⟨rest', by omega⟩)
termination_by (tokens.length, 7)

def productTail (left : Expr) (tokens : List Token) : Continued Expr tokens :=
  match tokens with
  | [] => .ok (left, ⟨[], by simp⟩)
  | token :: rest =>
      match productOp? token with
      | some op => do
          let (right, ⟨rest', h⟩) ← signed rest
          let (e, ⟨rest'', h'⟩) ← productTail (.binary op left right) rest'
          return (e, ⟨rest'', by simp; omega⟩)
      | none => .ok (left, ⟨token :: rest, Nat.le_refl _⟩)
termination_by (tokens.length, 0)

def signed (tokens : List Token) : Parsed Expr tokens :=
  match tokens with
  | .symbol .minus :: rest => do
      let (operand, ⟨rest', h⟩) ← signed rest
      return (.unary .neg operand, ⟨rest', by simp; omega⟩)
  | .symbol .plus :: rest => do
      let (operand, ⟨rest', h⟩) ← signed rest
      return (.unary .pos operand, ⟨rest', by simp; omega⟩)
  | tokens => power tokens
termination_by (tokens.length, 6)

def power (tokens : List Token) : Parsed Expr tokens := do
  let (base, ⟨rest, h⟩) ← subscripted tokens
  match rest, h with
  | .symbol .doubleStar :: rest', h => do
      have shorter : rest'.length < tokens.length := Nat.lt_of_succ_lt h
      -- the exponent may have a sign and be a power itself
      let (exponent, ⟨rest'', h'⟩) ← signed rest'
      return (.binary .pow base exponent, ⟨rest'', by omega⟩)
  | rest, h => return (base, ⟨rest, h⟩)
termination_by (tokens.length, 5)

def subscripted (tokens : List Token) : Parsed Expr tokens := do
  let (target, ⟨rest, h⟩) ← atom tokens
  let (e, ⟨rest', h'⟩) ← subscripts target rest
  return (e, ⟨rest', by omega⟩)
termination_by (tokens.length, 4)

def subscripts (target : Expr) (tokens : List Token) : Continued Expr tokens :=
  match tokens with
  | .symbol .openBracket :: rest => do
      let (index, ⟨rest', h⟩) ← disjunction rest
      let ((), ⟨rest'', h'⟩) ← symbol .closeBracket "\x60]\x60" rest'
      let (e, ⟨last, h''⟩) ← subscripts (.index target index) rest''
      return (e, ⟨last, by simp; omega⟩)
  | .symbol .openParen :: _ => .error (.unsupported "function call")
  | .symbol .dot :: _ => .error (.unsupported "attribute access")
  | tokens => .ok (target, ⟨tokens, Nat.le_refl _⟩)
termination_by (tokens.length, 0)

def atom (tokens : List Token) : Parsed Expr tokens :=
  match tokens with
  | [] => .error (.unexpectedEnd "an expression")
  | .int n :: rest => .ok (.literal (.int n), ⟨rest, Nat.lt_succ_self _⟩)
  | .float x :: rest => .ok (.literal (.float x), ⟨rest, Nat.lt_succ_self _⟩)
  | .string s :: rest =>
      match adjacent s rest with
      | (text, ⟨rest', h⟩) => .ok (.literal (.string text), ⟨rest', Nat.lt_succ_of_le h⟩)
  | .template s :: rest => do
      let parts ← template s
      return (.template parts, ⟨rest, Nat.lt_succ_self _⟩)
  | .ident name :: rest => do
      let e ← word name
      return (e, ⟨rest, Nat.lt_succ_self _⟩)
  | .newline :: _ => .error (.unexpectedToken Token.newline.text "an expression")
  | .symbol s :: rest => bracketed s rest
termination_by (tokens.length, 3)

def bracketed (s : Symbol) (rest : List Token) : Parsed Expr (.symbol s :: rest) :=
  match s with
  | .openParen => do
      let (e, ⟨rest', h⟩) ← disjunction rest
      let ((), ⟨rest'', h'⟩) ← symbol .closeParen "\x60)\x60" rest'
      return (e, ⟨rest'', by simp; omega⟩)
  | .openBracket => do
      let (items, ⟨rest', h⟩) ← items rest
      return (.list items, ⟨rest', by simp; omega⟩)
  | .openBrace => do
      let (entries, ⟨rest', h⟩) ← entries rest
      return (.map entries, ⟨rest', by simp; omega⟩)
  | s => .error (.unexpectedToken (Token.symbol s).text "an expression")
termination_by (rest.length, 14)

def items (tokens : List Token) : Parsed (List Expr) tokens :=
  match tokens with
  | .symbol .closeBracket :: rest => .ok ([], ⟨rest, by simp⟩)
  | tokens => do
      let (item, ⟨rest, h⟩) ← disjunction tokens
      match rest, h with
      | .symbol .comma :: rest', h => do
          have shorter : rest'.length < tokens.length := Nat.lt_of_succ_lt h
          let (more, ⟨rest'', h'⟩) ← items rest'
          return (item :: more, ⟨rest'', by omega⟩)
      | rest, h => do
          let ((), ⟨rest', h'⟩) ← symbol .closeBracket "\x60,\x60 or \x60]\x60" rest
          return ([item], ⟨rest', by omega⟩)
termination_by (tokens.length, 13)

def entries (tokens : List Token) : Parsed (List (Expr × Expr)) tokens :=
  match tokens with
  | .symbol .closeBrace :: rest => .ok ([], ⟨rest, by simp⟩)
  | tokens => do
      let (key, ⟨rest, h⟩) ← disjunction tokens
      let ((), ⟨rest', h'⟩) ← symbol .colon "\x60:\x60" rest
      let (value, ⟨rest'', h''⟩) ← disjunction rest'
      match rest'', h'' with
      | .symbol .comma :: next, h'' => do
          have shorter : next.length < rest'.length := Nat.lt_of_succ_lt h''
          let (more, ⟨last, hl⟩) ← entries next
          return ((key, value) :: more, ⟨last, by omega⟩)
      | rest'', h'' => do
          let ((), ⟨last, hl⟩) ← symbol .closeBrace "\x60,\x60 or \x60\x7d\x60" rest''
          return ([(key, value)], ⟨last, by omega⟩)
termination_by (tokens.length, 13)

end

def whole (tokens : List Token) : Except ExprError Expr := do
  let (e, ⟨rest, _⟩) ← disjunction template tokens
  match rest with
  | [] => return e
  | token :: _ => .error (.unexpectedToken token.text "end of expression")

end

/-- Parses the source of an expression. An embedded source is shorter than the source around it, so
`depth` levels suffice for a source of that length; only an empty source meets depth zero, and it holds
no expression. -/
def source : Nat → List Char → Except ExprError Expr
  | 0, _ => .error (.unexpectedEnd "an expression")
  | depth + 1, text => do
      let tokens ← Token.scanFrom 0 text
      whole (Template.parse (source depth)) tokens

def longestTemplate (tokens : List Token) : Nat :=
  tokens.foldl longer 0
where
  longer (n : Nat) : Token → Nat
    | .template s => max n s.length
    | _ => n

end Parse

namespace Expr

def ofTokens (tokens : List Token) : Except ExprError Expr :=
  Parse.whole (Template.parse (Parse.source (Parse.longestTemplate tokens))) tokens

def parse (source : String) : Except ExprError Expr := do
  let tokens ← Token.scan source
  ofTokens tokens

end Expr

end DocBlocks
