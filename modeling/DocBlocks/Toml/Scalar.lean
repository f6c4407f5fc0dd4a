import DocBlocks.Decimal.Reading
import DocBlocks.Toml.Basic
import DocBlocks.Toml.Text

/-!
The scalars of TOML that are no strings: integers, floats, truth values, dates and times.
-/
namespace DocBlocks.Toml

open Decimal (isDigit natOf)

def digits? (isDigit : Char → Bool) : List Char → Option (List Char)
  | [] => none
  | [c] => if isDigit c then some [c] else none
  | c :: '_' :: rest => do
      if isDigit c then some (c :: (← digits? isDigit rest)) else none
  | c :: rest => do
      if isDigit c then some (c :: (← digits? isDigit rest)) else none

def based? (base : Nat) (text : List Char) : Option Int := do
  let isBaseDigit (c : Char) : Bool := (hexDigit? c).any (· < base)
  let digits ← digits? isBaseDigit text
  let values ← digits.mapM hexDigit?
  some (Int.ofNat (values.foldl (fun n v => base * n + v) 0))

def whole? (text : List Char) : Option (List Char) := do
  let digits ← digits? isDigit text
  match digits with
  | '0' :: _ :: _ => none
  | digits => some digits

def integer? (text : List Char) : Option Int :=
  match text with
  | '0' :: 'x' :: rest => based? 16 rest
  | '0' :: 'o' :: rest => based? 8 rest
  | '0' :: 'b' :: rest => based? 2 rest
  | text => do
      let (isNegative, rest) := Decimal.takeSign text
      let n : Int := natOf (← whole? rest)
      some (if isNegative then -n else n)

def isExponentMark (c : Char) : Bool := c == 'e' || c == 'E'

def float? (text : List Char) : Option Float :=
  let (isNegative, rest) := Decimal.takeSign text
  if rest = ['i', 'n', 'f'] then some (if isNegative then -1.0 / 0.0 else 1.0 / 0.0)
  else if rest = ['n', 'a', 'n'] then some (0.0 / 0.0)
  else do
    let mantissa := rest.takeWhile (!isExponentMark ·)
    let exponent := rest.drop mantissa.length
    let whole := mantissa.takeWhile (· != '.')
    let fraction := mantissa.drop whole.length
    if fraction.isEmpty && exponent.isEmpty then none
    let wholeDigits ← whole? whole
    let fractionDigits ←
      match fraction with
      | [] => some []
      | _ :: digits => digits? isDigit digits
    let power ←
      match exponent with
      | [] => some 0
      | _ :: signed => do
          let (isNegative, digits) := Decimal.takeSign signed
          let n : Int := natOf (← digits? isDigit digits)
          some (if isNegative then -n else n)
    let x := (Decimal.Literal.mk isNegative wholeDigits fractionDigits power).toFloat
    if x.isInf then none else some x

def fixed? (count low high : Nat) (s : List Char) : Option (Nat × List Char) :=
  let digits := s.take count
  let n := natOf digits
  if digits.length = count ∧ digits.all isDigit ∧ low ≤ n ∧ n ≤ high then some (n, s.drop count)
  else none

def isLeapYear (year : Nat) : Bool := year % 4 == 0 && (year % 100 != 0 || year % 400 == 0)

def daysIn (year month : Nat) : Nat :=
  if month = 2 then if isLeapYear year then 29 else 28
  else if month ∈ [4, 6, 9, 11] then 30
  else 31

def expect? (c : Char) : List Char → Option (List Char)
  | d :: rest => if d = c then some rest else none
  | [] => none

def afterDate? (s : List Char) : Option (List Char) := do
  let (year, s) ← fixed? 4 0 9999 s
  let (month, s) ← fixed? 2 1 12 (← expect? '-' s)
  let (_, s) ← fixed? 2 1 (daysIn year month) (← expect? '-' s)
  some s

def afterSeconds? (s : List Char) : Option (List Char) :=
  match s with
  | ':' :: rest => do
      let (_, rest) ← fixed? 2 0 60 rest
      match rest with
      | '.' :: digits =>
          let after := digits.dropWhile isDigit
          if after.length < digits.length then some after else none
      | rest => some rest
  | rest => some rest

def afterTime? (s : List Char) : Option (List Char) := do
  let (_, s) ← fixed? 2 0 23 s
  let (_, s) ← fixed? 2 0 59 (← expect? ':' s)
  afterSeconds? s

def isOffset (s : List Char) : Bool :=
  match s with
  | [] => true
  | ['Z'] | ['z'] => true
  | '+' :: rest | '-' :: rest =>
      match (do
        let (_, s) ← fixed? 2 0 23 rest
        let (_, s) ← fixed? 2 0 59 (← expect? ':' s)
        some s : Option (List Char)) with
      | some rest => rest.isEmpty
      | none => false
  | _ => false

def isDate (text : List Char) : Bool :=
  match afterDate? text with
  | some [] => true
  | some (mark :: time) =>
      (mark == 'T' || mark == 't' || mark == ' ') && (afterTime? time).any isOffset
  | none => (afterTime? text).any List.isEmpty

def scalar? (text : List Char) : Option Toml :=
  if text = "true".toList then some (.boolean true)
  else if text = "false".toList then some (.boolean false)
  else if isDate text then some .date
  else
    match integer? text with
    | some n => some (.integer n)
    | none => (float? text).map .float

end DocBlocks.Toml
