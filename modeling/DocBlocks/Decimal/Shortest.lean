/-!
The shortest decimal of a binary floating-point number: the fewest digits that read back as the
number, and among those the digits nearest to it.

A finite positive number is a natural number times a power of two. The real numbers that round to it
form an interval, whose ends belong to it when the significand is even. For one digit, two digits and
so on the two decimals next to the number are tried in exact arithmetic.
-/
namespace DocBlocks.Decimal

/-- A positive binary number: `significand * 2 ^ exponent`. `isNarrow` holds when the next smaller
number is only half as far away as the next larger one. -/
structure Binary where
  significand : Nat
  exponent : Int
  isNarrow : Bool
  deriving DecidableEq, Repr

structure Digits where
  digits : List Nat
  exponent : Int
  deriving DecidableEq, Repr

namespace Binary

def ofBits (bits : Nat) : Binary :=
  let fraction := bits % Nat.pow 2 52
  let biased : Nat := bits / Nat.pow 2 52 % Nat.pow 2 11
  if biased = 0 then ⟨fraction, -1074, false⟩
  else ⟨Nat.pow 2 52 + fraction, (biased : Int) - 1075, fraction == 0 && biased != 1⟩

structure Interval where
  low : Nat
  value : Nat
  high : Nat
  denominator : Nat
  isClosed : Bool
  deriving DecidableEq, Repr

def interval (b : Binary) : Interval :=
  let scale := if b.exponent ≥ 2 then Nat.pow 2 (b.exponent - 2).toNat else 1
  { low := (4 * b.significand - (if b.isNarrow then 1 else 2)) * scale
    value := 4 * b.significand * scale
    high := (4 * b.significand + 2) * scale
    denominator := if b.exponent ≥ 2 then 1 else Nat.pow 2 (2 - b.exponent).toNat
    isClosed := b.significand % 2 == 0 }

namespace Interval

def contains (i : Interval) (count : Nat) (power : Int) : Bool :=
  let left := count * (if power ≥ 0 then Nat.pow 10 power.toNat else 1) * i.denominator
  let scale := if power ≥ 0 then 1 else Nat.pow 10 (-power).toNat
  if i.isClosed then i.low * scale ≤ left && left ≤ i.high * scale
  else i.low * scale < left && left < i.high * scale

def decade (i : Interval) : Int :=
  if i.value ≥ i.denominator then ((Nat.toDigits 10 (i.value / i.denominator)).length : Int) - 1
  else
    match (List.range 400).find? (fun k => i.value * Nat.pow 10 (k + 1) ≥ i.denominator) with
    | some k => -((k : Int) + 1)
    | none => -400

/-- The decimal of the grid `10 ^ power` that lies in the interval and is nearest to the number; of
two equally near the greater. -/
def nearest? (i : Interval) (power : Int) : Option Nat :=
  let numerator := i.value * (if power ≥ 0 then 1 else Nat.pow 10 (-power).toNat)
  let unit := i.denominator * (if power ≥ 0 then Nat.pow 10 power.toNat else 1)
  let below := numerator / unit
  let isBelowNearer := 2 * (numerator % unit) < unit
  match i.contains below power, i.contains (below + 1) power with
  | true, true => some (if isBelowNearer then below else below + 1)
  | true, false => some below
  | false, true => some (below + 1)
  | false, false => none

end Interval

end Binary

def Digits.ofCount (count : Nat) (power : Int) : Digits :=
  let all := (Nat.toDigits 10 count).map fun c => c.toNat - '0'.toNat
  { digits := (all.reverse.dropWhile (· == 0)).reverse
    exponent := power + all.length - 1 }

def Binary.shortest (b : Binary) : Digits :=
  let i := b.interval
  let decade := i.decade
  let found := (List.range 17).findSome? fun n : Nat =>
    let power := decade - (n : Int)
    (i.nearest? power).map (Digits.ofCount · power)
  found.getD ⟨[0], 0⟩

end DocBlocks.Decimal
