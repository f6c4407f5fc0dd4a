import DocBlocks.Value.Basic

/-!
Equality of values, with floats compared approximately.
-/
namespace DocBlocks

def floatRank (x : Float) : Int :=
  let bits := x.toBits.toNat
  if bits < Nat.pow 2 63 then bits else Int.pow 2 63 - 1 - (bits : Int)

/-- Doubles are taken for equal when they are equal, differ by at most the distance from one to the
next double, or have at most three doubles between them. -/
def floatApprox (x y : Float) : Bool :=
  x == y || (x - y).abs ≤ 2.220446049250313e-16 || (floatRank x - floatRank y).natAbs ≤ 4

namespace Value

mutual

def approx : Value → Value → Bool
  | null, null => true
  | bool a, bool b => a == b
  | int a, int b => a == b
  | float a, float b => floatApprox a b
  | string a, string b => a == b
  | list as, list bs => approxItems as bs
  | map as, map bs => approxEntries as bs
  | _, _ => false

def approxItems : List Value → List Value → Bool
  | [], [] => true
  | a :: as, b :: bs => a.approx b && approxItems as bs
  | _, _ => false

def approxEntries : List (String × Value) → List (String × Value) → Bool
  | [], [] => true
  | (k, a) :: as, (l, b) :: bs => k == l && a.approx b && approxEntries as bs
  | _, _ => false

end

end Value

end DocBlocks
