import DocBlocks.Markdown.Entity.Names

/-!
Character references: an ampersand, a name or a code point, and a semicolon. A code point that is no
character of a text is read as the replacement character.
-/
namespace DocBlocks.Markdown.Entity

def isRefused (code : Nat) : Bool :=
  code ≤ 0x08 || code == 0x0B || (0x0E ≤ code && code ≤ 0x1F) || (0x7F ≤ code && code ≤ 0x9F) ||
    (0xFDD0 ≤ code && code ≤ 0xFDEF) || code % 0x10000 ≥ 0xFFFE

def character (code : Nat) : Char :=
  if code.isValidChar && !isRefused code then Char.ofNat code else '\uFFFD'

def digitValue (c : Char) : Nat :=
  if c.isDigit then c.toNat - 48 else c.toLower.toNat - 87

def isHexDigit (c : Char) : Bool := c.isDigit || ('a' ≤ c.toLower && c.toLower ≤ 'f')

def code? (base most : Nat) (digits : List Char) : Option Nat :=
  if digits.isEmpty || digits.length > most then none
  else some (digits.foldl (fun code digit => code * base + digitValue digit) 0)

def decode? : List Char → Option (List Char)
  | '#' :: x :: digits =>
      if x == 'x' || x == 'X' then
        if digits.all isHexDigit then (code? 16 6 digits).map fun code => [character code] else none
      else if (x :: digits).all Char.isDigit then
        (code? 10 7 (x :: digits)).map fun code => [character code]
      else none
  | name => named? name

def longest : Nat := 33

def read? (s : List Char) : Option (List Char × Nat) :=
  let inside := (s.take longest).takeWhile (· != ';')
  if (s.drop inside.length).head? = some ';' then
    (decode? inside).map fun cs => (cs, inside.length + 1)
  else none

example : read? "nbsp; x".toList = some (['\u00a0'], 5) := by cbv
example : read? "#0; x".toList = some (['\uFFFD'], 3) := by cbv

end DocBlocks.Markdown.Entity
