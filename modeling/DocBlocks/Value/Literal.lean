import DocBlocks.Value.Basic
import DocBlocks.Text.Quoted
import DocBlocks.Decimal.Layout

/-!
Values written as argument source. A value's literal evaluates back to the value; only floats that are
not finite have no literal and are written as null.
-/
namespace DocBlocks.Value

/-- The least integer has no positive counterpart to negate, so it is written as a difference. -/
def intLiteral (n : Int64) : String :=
  if n = Int64.minValue then "(" ++ toString (n.toInt + 1) ++ " - 1)" else toString n.toInt

def floatText (x : Float) : String := Decimal.textOf Decimal.plainLayout x

mutual

def literal : Value → String
  | null => "null"
  | bool b => if b then "true" else "false"
  | int n => intLiteral n
  | float x => if x.isFinite then floatText x else "null"
  | string s => Text.Quoted.literal s
  | list items => "[" ++ ", ".intercalate (itemLiterals items) ++ "]"
  | map entries => "\x7b" ++ ", ".intercalate (entryLiterals entries) ++ "\x7d"

def itemLiterals : List Value → List String
  | [] => []
  | item :: rest => item.literal :: itemLiterals rest

def entryLiterals : List (String × Value) → List String
  | [] => []
  | (key, value) :: rest =>
      (Text.Quoted.literal key ++ ": " ++ value.literal) :: entryLiterals rest

end

def display : Value → String
  | string s => s
  | other => other.literal

end DocBlocks.Value
