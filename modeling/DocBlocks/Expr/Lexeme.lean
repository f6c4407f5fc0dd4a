import DocBlocks.Expr.Token
import DocBlocks.Text.Offset
import DocBlocks.Text.Quoted
import DocBlocks.Decimal.Reading

/-!
Cutting argument source into lexemes, the longest first, and reading the tokens among them.

Blanks, comments and escaped line breaks are lexemes without a token. A lexeme always takes at least
one character, so its length is given as the number of further characters.
-/
namespace DocBlocks

inductive LexemeKind where
  | skipped
  | newline
  | symbol (s : Symbol)
  | ident
  | int
  | float
  | doubleQuoted
  | singleQuoted
  | doubleQuotedTemplate
  | singleQuotedTemplate
  | invalid
  deriving DecidableEq, Repr

structure Lexeme where
  kind : LexemeKind
  more : Nat
  deriving DecidableEq, Repr

namespace Lexeme

def isNameStart (c : Char) : Bool := c.isAlpha || c == '_'

def isNamePart (c : Char) : Bool := c.isAlphanum || c == '_'

def isSpace (c : Char) : Bool := c == ' ' || c == '\t' || c == '\r'

def runLength (p : Char → Bool) (text : List Char) : Nat := (text.takeWhile p).length

def quotedLength? (quote : Char) (text : List Char) : Option Nat := go 0 text
where
  go (n : Nat) : List Char → Option Nat
    | [] => none
    | '\\' :: c :: rest => if c == '\n' then none else go (n + 2) rest
    | c :: rest =>
        if c == quote then some (n + 1)
        else if c == '\n' || c == '\\' then none
        else go (n + 1) rest

def exponentLength : List Char → Nat
  | [] => 0
  | mark :: rest =>
      if mark == 'e' || mark == 'E' then
        let (sign, digits) :=
          match rest with
          | '+' :: digits => (1, digits)
          | '-' :: digits => (1, digits)
          | digits => (0, digits)
        match runLength Decimal.isDigit digits with
        | 0 => 0
        | n + 1 => n + 2 + sign
      else 0

def number (rest : List Char) : Lexeme :=
  let whole := runLength Decimal.isDigit rest
  match rest.drop whole with
  | '.' :: rest =>
      let fraction := runLength Decimal.isDigit rest
      ⟨.float, whole + 1 + fraction + exponentLength (rest.drop fraction)⟩
  | rest =>
      match exponentLength rest with
      | 0 => ⟨.int, whole⟩
      | n => ⟨.float, whole + n⟩

def quoted (kind : LexemeKind) (quote : Char) (rest : List Char) : Lexeme :=
  match quotedLength? quote rest with
  | some n => ⟨kind, n⟩
  | none => ⟨.invalid, runLength (· != '\n') rest⟩

def nameOrTemplate (first : Char) (rest : List Char) : Lexeme :=
  let name : Lexeme := ⟨.ident, runLength isNamePart rest⟩
  let template (kind : LexemeKind) (quote : Char) (rest : List Char) : Lexeme :=
    match quotedLength? quote rest with
    | some n => ⟨kind, n + 1⟩
    | none => name
  if first == 'f' || first == 'F' then
    match rest with
    | '\x22' :: rest => template .doubleQuotedTemplate '\x22' rest
    | '\x27' :: rest => template .singleQuotedTemplate '\x27' rest
    | _ => name
  else name

def backslash : List Char → Lexeme
  | '\n' :: _ => ⟨.skipped, 1⟩
  | '\r' :: '\n' :: _ => ⟨.skipped, 2⟩
  | '\r' :: _ => ⟨.invalid, 1⟩
  | _ => ⟨.invalid, 0⟩

def symbol? (first : Char) (rest : List Char) : Option Lexeme :=
  let pair (second : Char) (long : Symbol) (short : Option Symbol) : Option Lexeme :=
    if rest.head? = some second then some ⟨.symbol long, 1⟩
    else short.map fun s => ⟨.symbol s, 0⟩
  let single (s : Symbol) : Option Lexeme := some ⟨.symbol s, 0⟩
  match first with
  | ';' => single .semicolon
  | '=' => pair '=' .equal (some .assign)
  | '!' => pair '=' .notEqual none
  | '<' => pair '=' .lessEqual (some .less)
  | '>' => pair '=' .greaterEqual (some .greater)
  | '+' => single .plus
  | '-' => single .minus
  | '*' => pair '*' .doubleStar (some .star)
  | '/' => pair '/' .doubleSlash (some .slash)
  | '%' => single .percent
  | '(' => single .openParen
  | ')' => single .closeParen
  | '[' => single .openBracket
  | ']' => single .closeBracket
  | '{' => single .openBrace
  | '}' => single .closeBrace
  | ',' => single .comma
  | ':' => single .colon
  | '.' => single .dot
  | _ => none

def next (first : Char) (rest : List Char) : Lexeme :=
  if isSpace first then ⟨.skipped, runLength isSpace rest⟩
  else if first == '\n' then ⟨.newline, 0⟩
  else if first == '#' then ⟨.skipped, runLength (· != '\n') rest⟩
  else if first == '\\' then backslash rest
  else if first == '\x22' then quoted .doubleQuoted '\x22' rest
  else if first == '\x27' then quoted .singleQuoted '\x27' rest
  else if isNameStart first then nameOrTemplate first rest
  else if Decimal.isDigit first then number rest
  else (symbol? first rest).getD ⟨.invalid, 0⟩

end Lexeme

namespace Token

def decoded (make : String → Token) (whole : List Char) : Except ExprError (Option Token) :=
  match Text.Quoted.decode whole with
  | .ok text => .ok (some (make (String.ofList text)))
  | .error reason => .error (.invalidString reason)

def ofDigits (digits : List Char) : Except ExprError (Option Token) :=
  let n := Decimal.natOf digits
  if n < 0x8000000000000000 then .ok (some (int (Int64.ofNat n)))
  else .error (.invalidNumber (String.ofList digits))

def ofFloatText (text : List Char) : Except ExprError (Option Token) :=
  match Decimal.Literal.ofText? text with
  | some number => .ok (some (float number.toFloat))
  | none => .error (.invalidNumber (String.ofList text))

def ofLexeme (offset : Nat) (text : List Char) : LexemeKind → Except ExprError (Option Token)
  | .skipped => .ok none
  | .newline => .ok (some newline)
  | .symbol s => .ok (some (symbol s))
  | .ident => .ok (some (ident (String.ofList text)))
  | .int => ofDigits text
  | .float => ofFloatText text
  | .doubleQuoted => decoded string text
  | .singleQuoted => decoded string (Text.Quoted.requote text)
  | .doubleQuotedTemplate => decoded template (text.drop 1)
  | .singleQuotedTemplate => decoded template (Text.Quoted.requote (text.drop 1))
  | .invalid => .error (.invalidToken offset (String.ofList text))

def scanFrom (offset : Nat) (text : List Char) : Except ExprError (List Token) :=
  go [] offset text
where
  go (seen : List Token) (offset : Nat) : List Char → Except ExprError (List Token)
    | [] => .ok seen.reverse
    | c :: rest =>
        let lexeme := Lexeme.next c rest
        let slice := c :: rest.take lexeme.more
        match ofLexeme offset slice lexeme.kind with
        | .error e => .error e
        | .ok none => go seen (offset + Text.size slice) (rest.drop lexeme.more)
        | .ok (some token) => go (token :: seen) (offset + Text.size slice) (rest.drop lexeme.more)
  termination_by text => text.length
  decreasing_by all_goals simp only [List.length_drop, List.length_cons]; omega

def scan (source : String) : Except ExprError (List Token) := scanFrom 0 source.toList

end Token

end DocBlocks
