import DocBlocks.Text.Blank

/-!
The statements of argument text.

Common indentation is removed first. Statements then end at line feeds and semicolons, except inside
brackets, literals and comments; a backslash before a line feed joins two lines.
-/
namespace DocBlocks

namespace Text

def indentation (line : List Char) : Nat := (line.takeWhile isIndent).length

def commonIndentation (lines : List (List Char)) : Nat :=
  match lines.find? (fun line => !isBlankText line) with
  | some line => indentation line
  | none => 0

def unindent (width : Nat) (line : List Char) : List Char :=
  line.drop (min width (indentation line))

def dedent (source : List Char) : List Char :=
  let all := lines source
  joined ['\n'] (all.map (unindent (commonIndentation all)))

end Text

structure Statement where
  text : List Char
  line : Nat
  deriving DecidableEq, Repr

namespace Statement

inductive Mode where
  | plain
  | quoted (quote : Char)
  | comment
  deriving DecidableEq, Repr

def Mode.after (c : Char) : Mode :=
  if c == '"' || c == '\x27' then .quoted c else if c == '#' then .comment else .plain

def depthAfter (depth : Nat) (c : Char) : Nat :=
  if c == '(' || c == '[' || c == '{' then depth + 1
  else if c == ')' || c == ']' || c == '}' then depth - 1
  else depth

structure State where
  seen : List Char
  start : Nat
  line : Nat
  depth : Nat
  mode : Mode
  deriving DecidableEq, Repr

namespace State

def initial : State := ⟨[], 1, 1, 0, .plain⟩

def statement (s : State) : Statement := ⟨s.seen.reverse, s.start⟩

def restart (s : State) : State := { s with seen := [], start := s.line }

def push (s : State) (c : Char) : State := { s with seen := c :: s.seen }

def newline (s : State) : State := { s with line := s.line + 1, mode := .plain }

def take (s : State) (c : Char) : State :=
  { s with seen := c :: s.seen, depth := depthAfter s.depth c, mode := Mode.after c }

end State

def splitFrom (s : State) : List Char → List Statement
  | [] => [s.statement]
  | '\n' :: rest =>
      if s.depth = 0 then s.statement :: splitFrom s.newline.restart rest
      else splitFrom (s.newline.push '\n') rest
  | c :: rest =>
      match s.mode with
      | .comment => splitFrom (s.push c) rest
      | .quoted quote =>
          if c == '\\' then
            match rest with
            | [] => splitFrom (s.push c) []
            | escaped :: rest' =>
                if escaped == '\n' then splitFrom (s.push c) (escaped :: rest')
                else splitFrom ((s.push c).push escaped) rest'
          else if c == quote then splitFrom { s.push c with mode := .plain } rest
          else splitFrom (s.push c) rest
      | .plain =>
          if c == '\\' && rest.head? == some '\n' then
            splitFrom ({ s with line := s.line + 1 }.push ' ') (rest.drop 1)
          else if c == ';' && s.depth == 0 then s.statement :: splitFrom s.restart rest
          else splitFrom (s.take c) rest
termination_by text => text.length

def split (source : List Char) : List Statement := splitFrom .initial source

end Statement

end DocBlocks
