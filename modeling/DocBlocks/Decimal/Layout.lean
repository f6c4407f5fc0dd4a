import DocBlocks.Decimal.Shortest

/-!
How a decimal is laid out in text, and the text of a double.
-/
namespace DocBlocks.Decimal

structure Layout where
  leastPositional : Int
  greatestPositional : Int
  exponentMark : Char
  infinity : String
  undefined : String
  deriving DecidableEq, Repr

/-- Numbers from `0.0001` up to below `1e16` are written without an exponent and keep one digit after
the point; an exponent has neither a plus sign nor leading zeros. -/
def plainLayout : Layout := ⟨-4, 15, 'e', "inf", "NaN"⟩

def digitChar (digit : Nat) : Char := Char.ofNat ('0'.toNat + digit)

namespace Digits

def positional (d : Digits) : List Char :=
  let chars := d.digits.map digitChar
  if d.exponent < 0 then
    '0' :: '.' :: (List.replicate (-d.exponent - 1).toNat '0' ++ chars)
  else
    let whole := d.exponent.toNat + 1
    let after := chars.drop whole
    (chars.take whole ++ List.replicate (whole - chars.length) '0') ++
      '.' :: (if after.isEmpty then ['0'] else after)

def scientific (layout : Layout) (d : Digits) : List Char :=
  let fraction :=
    match d.digits.map digitChar with
    | [] => ['0']
    | [first] => [first]
    | first :: rest => first :: '.' :: rest
  fraction ++ layout.exponentMark :: (toString d.exponent).toList

def layOut (layout : Layout) (d : Digits) : List Char :=
  if layout.leastPositional ≤ d.exponent ∧ d.exponent ≤ layout.greatestPositional then d.positional
  else d.scientific layout

end Digits

def textOf (layout : Layout) (x : Float) : String :=
  if x.isNaN then layout.undefined
  else
    let bits := x.toBits.toNat
    let sign := if bits ≥ Nat.pow 2 63 then ['-'] else []
    let magnitude := bits % Nat.pow 2 63
    let body :=
      if x.isInf then layout.infinity.toList
      else if magnitude = 0 then "0.0".toList
      else (Binary.ofBits magnitude).shortest.layOut layout
    String.ofList (sign ++ body)

end DocBlocks.Decimal
