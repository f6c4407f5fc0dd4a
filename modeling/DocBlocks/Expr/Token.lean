import DocBlocks.Expr.Error
import DocBlocks.Value.Literal
import DocBlocks.Text.Escaped

/-!
The tokens of the argument language.
-/
namespace DocBlocks

inductive Symbol where
  | semicolon | assign | equal | notEqual | less | lessEqual | greater | greaterEqual
  | plus | minus | star | doubleStar | slash | doubleSlash | percent
  | openParen | closeParen | openBracket | closeBracket | openBrace | closeBrace
  | comma | colon | dot
  deriving DecidableEq, Repr

def Symbol.text : Symbol → String
  | semicolon => ";"
  | assign => "="
  | equal => "=="
  | notEqual => "!="
  | less => "<"
  | lessEqual => "<="
  | greater => ">"
  | greaterEqual => ">="
  | plus => "+"
  | minus => "-"
  | star => "*"
  | doubleStar => "**"
  | slash => "/"
  | doubleSlash => "//"
  | percent => "%"
  | openParen => "("
  | closeParen => ")"
  | openBracket => "["
  | closeBracket => "]"
  | openBrace => "\x7b"
  | closeBrace => "\x7d"
  | comma => ","
  | colon => ":"
  | dot => "."

inductive Token where
  | newline
  | symbol (s : Symbol)
  | ident (name : String)
  | int (n : Int64)
  | float (x : Float)
  | string (s : String)
  | template (s : String)
  deriving DecidableEq, Repr

def Token.text : Token → String
  | newline => "newline"
  | symbol s => s.text
  | ident name => name
  | int n => toString n.toInt
  | float x => Value.floatText x
  | string s => Text.escaped s
  | template s => "f" ++ Text.escaped s

end DocBlocks
