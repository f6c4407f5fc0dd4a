import DocBlocks.Expr.Basic
import DocBlocks.Expr.Error
import DocBlocks.Value.Approx
import DocBlocks.Text.Escaped

/-!
What the operators of the argument language compute.

Integers have 64 bits: a result that does not fit is an overflow, never wrapped. Where a float takes
part, or the result is a quotient, the arithmetic is that of doubles.
-/
namespace DocBlocks.Operation

def repetitionLimit : Nat := 10 * 1024 * 1024

def fits (n : Int) : Bool := -0x8000000000000000 ≤ n && n < 0x8000000000000000

def checked (n : Int) : Except ExprError Value :=
  if fits n then .ok (.int (Int64.ofInt n)) else .error .overflow

def floatArithmetic (op : BinaryOp) (a b : Float) : Except ExprError Value :=
  let divides := op == .div || op == .floorDiv || op == .mod
  if divides && b == 0.0 then .error .divisionByZero
  else
    .ok <| .float <|
      match op with
      | .add => a + b
      | .sub => a - b
      | .mul => a * b
      | .div => a / b
      | .floorDiv => (a / b).floor
      | .mod => a - b * (a / b).floor
      | .pow => a.pow b

def naturalPower (a : Int) (exponent : Nat) : Except ExprError Value :=
  if a.natAbs ≤ 1 then checked (if a = -1 then (if exponent % 2 = 0 then 1 else -1)
    else if exponent = 0 then 1 else a)
  -- every other base leaves the range at the 64th power
  else if exponent ≥ 64 then .error .overflow
  else checked (Int.pow a exponent)

/-- Arithmetic of two integers. Division rounds to the floor, and the remainder goes with the quotient:
where the quotient overflows, so does the remainder. An exponent has at most 32 bits; a negative one
makes a float. -/
def intArithmetic (op : BinaryOp) (a b : Int) : Except ExprError Value :=
  match op with
  | .add => checked (a + b)
  | .sub => checked (a - b)
  | .mul => checked (a * b)
  | .div => floatArithmetic .div (.ofInt a) (.ofInt b)
  | .floorDiv => if b = 0 then .error .divisionByZero else checked (Int.fdiv a b)
  | .mod =>
      if b = 0 then .error .divisionByZero
      else if fits (Int.fdiv a b) then checked (Int.fmod a b)
      else .error .overflow
  | .pow =>
      if b < 0 then floatArithmetic .pow (.ofInt a) (.ofInt b)
      else if b ≥ 0x100000000 then .error .overflow
      else naturalPower a b.toNat

def repetitions (size : Nat) (count : Int64) : Except ExprError Nat :=
  let times := count.toInt.toNat
  if size * times ≤ repetitionLimit then .ok times else .error .overflow

def repeatString (s : String) (count : Int64) : Except ExprError Value := do
  let times ← repetitions s.utf8ByteSize count
  return .string (if s.isEmpty then "" else String.join (List.replicate times s))

def repeatList (items : List Value) (count : Int64) : Except ExprError Value := do
  let times ← repetitions items.length count
  return .list (if items.isEmpty then [] else (List.replicate times items).flatten)

def binary (op : BinaryOp) (left right : Value) : Except ExprError Value :=
  match op, left, right with
  | .add, .string a, .string b => .ok (.string (a ++ b))
  | .add, .list a, .list b => .ok (.list (a ++ b))
  | .mul, .string s, .int n => repeatString s n
  | .mul, .int n, .string s => repeatString s n
  | .mul, .list items, .int n => repeatList items n
  | .mul, .int n, .list items => repeatList items n
  | op, .int a, .int b => intArithmetic op a.toInt b.toInt
  | op, left, right =>
      match left.asFloat?, right.asFloat? with
      | some a, some b => floatArithmetic op a b
      | _, _ => .error (.operandTypes op.text left.typeName right.typeName)

def unary (op : UnaryOp) (operand : Value) : Except ExprError Value :=
  match op, operand with
  | .not, value => .ok (.bool !value.isTruthy)
  | .neg, .int n => checked (-n.toInt)
  | .neg, .float x => .ok (.float (-x))
  | .pos, .int n => .ok (.int n)
  | .pos, .float x => .ok (.float x)
  | op, value => .error (.unaryOperandType op.text value.typeName)

def floatOrder? (a b : Float) : Option Ordering :=
  if a < b then some .lt
  else if a == b then some .eq
  else if b < a then some .gt
  else none

def order? : Value → Value → Option Ordering
  | .string a, .string b => some (compare a b)
  | a, b =>
      match a.asFloat?, b.asFloat? with
      | some a, some b => floatOrder? a b
      | _, _ => none

def holds (op : CompareOp) (order : Ordering) : Bool :=
  match op with
  | .eq => order == .eq
  | .ne => order != .eq
  | .lt => order == .lt
  | .le => order != .gt
  | .gt => order == .gt
  | .ge => order != .lt

def relate (op : CompareOp) (left right : Value) : Except ExprError Bool :=
  match order? left right with
  | some order => .ok (holds op order)
  | none =>
      match op with
      | .eq => .ok (left.approx right)
      | .ne => .ok !(left.approx right)
      | op => .error (.operandTypes op.text left.typeName right.typeName)

def place? (length : Nat) (index : Int) : Option Nat :=
  let place := if index < 0 then index + length else index
  if 0 ≤ place ∧ place < length then some place.toNat else none

def itemAt {α : Type} (items : List α) (index : Int64) : Except ExprError α :=
  match (place? items.length index.toInt).bind (items[·]?) with
  | some item => .ok item
  | none => .error (.index ("index " ++ toString index.toInt ++ " out of range"))

def subscript (target index : Value) : Except ExprError Value :=
  match target, index with
  | .list items, .int n => itemAt items n
  | .string s, .int n => (itemAt s.toList n).map fun c => .string (String.singleton c)
  | .map entries, .string key =>
      match Entries.get? key entries with
      | some value => .ok value
      | none => .error (.index ("key " ++ Text.escaped key ++ " not found"))
  | target, index => .error (.operandTypes "[]" target.typeName index.typeName)

end DocBlocks.Operation
