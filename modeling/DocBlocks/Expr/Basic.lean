import DocBlocks.Value.Basic

/-!
Argument expressions.
-/
namespace DocBlocks

inductive TemplatePart (α : Type) where
  | text (s : String)
  | embedded (content : α)
  deriving Repr, DecidableEq

inductive UnaryOp where
  | neg | pos | not
  deriving DecidableEq, Repr

inductive BinaryOp where
  | add | sub | mul | div | floorDiv | mod | pow
  deriving DecidableEq, Repr

inductive CompareOp where
  | eq | ne | lt | le | gt | ge
  deriving DecidableEq, Repr

def UnaryOp.text : UnaryOp → String
  | neg => "-"
  | pos => "+"
  | not => "not"

def BinaryOp.text : BinaryOp → String
  | add => "+"
  | sub => "-"
  | mul => "*"
  | div => "/"
  | floorDiv => "//"
  | mod => "%"
  | pow => "**"

def CompareOp.text : CompareOp → String
  | eq => "=="
  | ne => "!="
  | lt => "<"
  | le => "<="
  | gt => ">"
  | ge => ">="

inductive Expr where
  | literal (value : Value)
  | name (name : String)
  | template (parts : List (TemplatePart Expr))
  | list (items : List Expr)
  | map (entries : List (Expr × Expr))
  | unary (op : UnaryOp) (operand : Expr)
  | binary (op : BinaryOp) (left right : Expr)
  /-- A chain of comparisons such as `a < b <= c`, with at least one link. -/
  | compare (first : Expr) (links : List (CompareOp × Expr))
  | and (left right : Expr)
  | or (left right : Expr)
  | index (target index : Expr)
  deriving Repr, Inhabited

end DocBlocks
