/-!
Reading decimal text as a double, correctly rounded.
-/
namespace DocBlocks.Decimal

def isDigit (c : Char) : Bool := '0' ≤ c && c ≤ '9'

def digitValue (c : Char) : Nat := c.toNat - '0'.toNat

def natOf (digits : List Char) : Nat := digits.foldl (fun n c => 10 * n + digitValue c) 0

structure Literal where
  isNegative : Bool
  whole : List Char
  fraction : List Char
  exponent : Int
  deriving DecidableEq, Repr

namespace Literal

def exponentBound : Int := 400

def toFloat (l : Literal) : Float :=
  -- without leading zeros the number of digits tells the size
  let digits := (l.whole ++ l.fraction).dropWhile (· == '0')
  let power := l.exponent - l.fraction.length
  let size := power + digits.length
  let magnitude : Float :=
    if digits.isEmpty || size < -exponentBound then 0
    else if size > exponentBound then 1.0 / 0.0
    else if power ≥ 0 then OfScientific.ofScientific (natOf digits) false power.toNat
    else OfScientific.ofScientific (natOf digits) true (-power).toNat
  if l.isNegative then -magnitude else magnitude

end Literal

def takeSign : List Char → Bool × List Char
  | '-' :: rest => (true, rest)
  | '+' :: rest => (false, rest)
  | rest => (false, rest)

def exponent? : List Char → Option Int
  | [] => some 0
  | mark :: rest =>
      if mark == 'e' || mark == 'E' then
        let (isNegative, digits) := takeSign rest
        if digits.isEmpty || !digits.all isDigit then none
        else some (if isNegative then -(natOf digits : Int) else natOf digits)
      else none

def Literal.ofText? (text : List Char) : Option Literal := do
  let (isNegative, rest) := takeSign text
  let whole := rest.takeWhile isDigit
  let (fraction, rest) :=
    match rest.dropWhile isDigit with
    | '.' :: rest => (rest.takeWhile isDigit, rest.dropWhile isDigit)
    | rest => ([], rest)
  if whole.isEmpty && fraction.isEmpty then none
  else return ⟨isNegative, whole, fraction, ← exponent? rest⟩

def float? (text : List Char) : Option Float :=
  let (isNegative, name) := takeSign text
  let name := name.map Char.toLower
  let signed (x : Float) : Float := if isNegative then -x else x
  if name = "inf".toList || name = "infinity".toList then some (signed (1.0 / 0.0))
  else if name = "nan".toList then some (signed (0.0 / 0.0))
  else (Literal.ofText? text).map Literal.toFloat

end DocBlocks.Decimal
