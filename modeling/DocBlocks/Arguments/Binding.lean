import DocBlocks.Arguments.Basic
import DocBlocks.Arguments.Statement
import DocBlocks.Expr.Eval
import DocBlocks.Expr.Parse
import DocBlocks.Notice

/-!
Binding the statements of argument text.

Statements are evaluated in order and may use the names bound before. An assignment that fails binds
its name to null; a statement that is no assignment is skipped.
-/
namespace DocBlocks

structure StatementError where
  statement : String
  line : Nat
  name : Option String
  error : ExprError
  deriving DecidableEq, Repr

def StatementError.notice (e : StatementError) : Notice :=
  .error ("failed to parse argument: " ++ e.error.message)

namespace Arguments

inductive Effect where
  | nothing
  | assigned (name : String) (value : Value)
  | failed (name : Option String) (error : ExprError)
  deriving Repr

/-- The text before the first equals sign, which a bad assignment tries to bind. -/
def targetOf (text : List Char) : String :=
  String.ofList (Text.trim (text.takeWhile (· != '=')))

def evaluated (scope : Arguments) (tokens : List Token) : Except ExprError Value := do
  let e ← Expr.ofTokens tokens
  e.eval scope

def effectOf (scope : Arguments) (text : List Char) : Effect :=
  match Token.scanFrom 0 text with
  | .error e => .failed none e
  | .ok tokens =>
      match tokens.filter (· != .newline) with
      | [] => .nothing
      | .ident name :: .symbol .assign :: right =>
          match evaluated scope right with
          | .ok value => .assigned name value
          | .error e => .failed (some name) e
      | _ => .failed none (.invalidTarget (targetOf text))

def bindStatement (state : Arguments × List StatementError) (statement : Statement) :
    Arguments × List StatementError :=
  let (arguments, errors) := state
  let text := Text.trim statement.text
  if text.isEmpty then state
  else
    match effectOf arguments text with
    | .nothing => state
    | .assigned name value => (arguments.insert name value, errors)
    | .failed name e =>
        (match name with
          | some name => arguments.insert name .null
          | none => arguments,
        errors ++ [⟨String.ofList text, statement.line, name, e⟩])

def parseWithErrors (source : String) : Arguments × List StatementError :=
  (Statement.split (Text.dedent source.toList)).foldl bindStatement (empty, [])

def parse (source : String) : Arguments := (parseWithErrors source).1

def parseNoticed (source : String) : Arguments × List Notice :=
  let (arguments, errors) := parseWithErrors source
  (arguments, errors.map StatementError.notice)

end Arguments

end DocBlocks
