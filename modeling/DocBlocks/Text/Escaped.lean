import DocBlocks.Text.Unprintable

/-!
Texts as messages quote them: between double quotes, with every character that would not show written
as an escape.
-/
namespace DocBlocks.Text

def hex (n : Nat) : List Char := Nat.toDigits 16 n

def codePointEscape (c : Char) : List Char :=
  ['\\', 'u', '{'] ++ hex c.toNat ++ ['}']

def escapedChar (c : Char) : List Char :=
  if c == '"' || c == '\\' then ['\\', c]
  else if c == '\n' then ['\\', 'n']
  else if c == '\r' then ['\\', 'r']
  else if c == '\t' then ['\\', 't']
  else if c == '\x00' then ['\\', '0']
  else if isUnprintable c then codePointEscape c
  else [c]

def escaped (s : String) : String :=
  String.ofList ('"' :: (s.toList.flatMap escapedChar ++ ['"']))

end DocBlocks.Text
