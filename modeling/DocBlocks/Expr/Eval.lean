import DocBlocks.Arguments.Basic
import DocBlocks.Expr.Operation

/-!
The value of an expression, with the names bound so far in scope.

Operands are evaluated from left to right, and the first error ends the evaluation. `and` and `or` give
one of their operands and skip the right one when the left decides.
-/
namespace DocBlocks.Expr

def keyOf : Value → Except ExprError String
  | .string key => .ok key
  | other => .error (.operandTypes "\x7b\x7d" "mapping key" other.typeName)

mutual

def eval (scope : Arguments) : Expr → Except ExprError Value
  | literal value => .ok value
  | name id =>
      match scope.get? id with
      | some value => .ok value
      | none => .error (.unknownName id)
  | template parts => do
      let text ← evalParts scope parts
      return .string text
  | list items => do
      let values ← evalItems scope items
      return .list values
  | map entries => do
      let pairs ← evalEntries scope [] entries
      return .map pairs
  | unary op operand => do
      let value ← eval scope operand
      Operation.unary op value
  | binary op left right => do
      let a ← eval scope left
      let b ← eval scope right
      Operation.binary op a b
  | compare first links => do
      let value ← eval scope first
      let holds ← evalLinks scope value links
      return .bool holds
  | and left right => do
      let value ← eval scope left
      if value.isTruthy then eval scope right else return value
  | or left right => do
      let value ← eval scope left
      if value.isTruthy then return value else eval scope right
  | index target place => do
      let a ← eval scope target
      let b ← eval scope place
      Operation.subscript a b

def evalParts (scope : Arguments) : List (TemplatePart Expr) → Except ExprError String
  | [] => .ok ""
  | .text s :: rest => do
      let text ← evalParts scope rest
      return s ++ text
  | .embedded e :: rest => do
      let value ← eval scope e
      let text ← evalParts scope rest
      return value.display ++ text

def evalItems (scope : Arguments) : List Expr → Except ExprError (List Value)
  | [] => .ok []
  | item :: rest => do
      let value ← eval scope item
      let values ← evalItems scope rest
      return value :: values

def evalEntries (scope : Arguments) (pairs : List (String × Value)) :
    List (Expr × Expr) → Except ExprError (List (String × Value))
  | [] => .ok pairs
  | (key, item) :: rest => do
      let keyValue ← eval scope key
      let key ← keyOf keyValue
      let value ← eval scope item
      evalEntries scope (Entries.insert key value pairs) rest

def evalLinks (scope : Arguments) (left : Value) :
    List (CompareOp × Expr) → Except ExprError Bool
  | [] => .ok true
  | (op, right) :: rest => do
      let value ← eval scope right
      let holds ← Operation.relate op left value
      if holds then evalLinks scope value rest else return false

end

end DocBlocks.Expr
