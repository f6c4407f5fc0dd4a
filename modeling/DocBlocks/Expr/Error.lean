/-!
What can go wrong with an argument expression, from its characters to its value.
-/
namespace DocBlocks

inductive ExprError where
  | invalidToken (offset : Nat) (text : String)
  | invalidString (reason : String)
  | invalidNumber (text : String)
  | unexpectedToken (found expected : String)
  | unexpectedEnd (expected : String)
  | unknownName (name : String)
  | unsupported (feature : String)
  | operandTypes (operator left right : String)
  | unaryOperandType (operator operand : String)
  | divisionByZero
  | overflow
  | index (reason : String)
  | invalidTarget (target : String)
  deriving DecidableEq, Repr

namespace ExprError

def marked (text : String) : String := "\x60" ++ text ++ "\x60"

def message : ExprError → String
  | invalidToken offset text =>
      "unrecognized input " ++ marked text ++ " at offset " ++ toString offset
  | invalidString reason => "invalid string literal: " ++ reason
  | invalidNumber text => "invalid number literal: " ++ marked text
  | unexpectedToken found expected => "unexpected " ++ marked found ++ ", expected " ++ expected
  | unexpectedEnd expected => "unexpected end of input, expected " ++ expected
  | unknownName name => "name " ++ marked name ++ " is not defined"
  | unsupported feature => feature ++ " is not supported in arguments"
  | operandTypes operator left right =>
      "unsupported operand types for " ++ marked operator ++ ": " ++ left ++ " and " ++ right
  | unaryOperandType operator operand =>
      "bad operand type for unary " ++ marked operator ++ ": " ++ operand
  | divisionByZero => "division by zero"
  | overflow => "integer overflow"
  | index reason => "index error: " ++ reason
  | invalidTarget target => "cannot assign to " ++ marked target

end ExprError

end DocBlocks
