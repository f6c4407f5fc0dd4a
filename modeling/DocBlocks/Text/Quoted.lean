import DocBlocks.Text.Escaped

/-!
Quoted literals of the argument language: how a text is written as a literal, and how the escapes of a
literal are read back.

Both kinds of quotes know the same escapes. A single-quoted literal is read by way of the
double-quoted literal of the same text, and messages about it show that form.
-/
namespace DocBlocks.Text.Quoted

def isControl (c : Char) : Bool := c.toNat < 0x20 || (0x7F ≤ c.toNat && c.toNat ≤ 0x9F)

def encodeChar (c : Char) : List Char :=
  if c == '"' || c == '\\' then ['\\', c]
  else if c == '\n' then ['\\', 'n']
  else if c == '\r' then ['\\', 'r']
  else if c == '\t' then ['\\', 't']
  else if isControl c then codePointEscape c
  else [c]

def encode (s : List Char) : List Char := s.flatMap encodeChar

def literal (s : String) : String := String.ofList ('"' :: (encode s.toList ++ ['"']))

inductive HexFault where
  | empty
  | badDigit
  | tooLarge
  deriving DecidableEq, Repr

def HexFault.message : HexFault → String
  | .empty => "cannot parse integer from empty string"
  | .badDigit => "invalid digit found in string"
  | .tooLarge => "number too large to fit in target type"

inductive CodePointFault where
  | noBrace
  | badNumber (digits : List Char) (fault : HexFault)
  | noCharacter (number : Nat)
  deriving DecidableEq, Repr

def CodePointFault.message : CodePointFault → String
  | .noBrace => "expected '\x7b' character in unicode escape"
  | .badNumber digits fault =>
      "could not parse " ++ String.ofList digits ++ " as u32 hex: " ++ fault.message
  | .noCharacter number => "could not parse " ++ toString number ++ " as a unicode char"

inductive Fault where
  | unknownEscape (escape : List Char) (index : Nat)
  | codePoint (fault : CodePointFault) (index : Nat)
  deriving DecidableEq, Repr

def Fault.message (whole : List Char) : Fault → String
  | .unknownEscape escape index =>
      "invalid escape " ++ String.ofList escape ++ " at " ++ toString index ++ " in " ++
        String.ofList whole
  | .codePoint fault index =>
      "\\u could not be parsed at " ++ toString index ++ " in " ++ String.ofList whole ++ ": " ++
        fault.message

def hexValue? (c : Char) : Option Nat :=
  if '0' ≤ c && c ≤ '9' then some (c.toNat - '0'.toNat)
  else if 'a' ≤ c && c ≤ 'f' then some (c.toNat - 'a'.toNat + 10)
  else if 'A' ≤ c && c ≤ 'F' then some (c.toNat - 'A'.toNat + 10)
  else none

def hexOnto : Nat → List Char → Except HexFault Nat
  | n, [] => .ok n
  | n, c :: rest =>
      -- a bad digit is noticed before the number grows too large by it
      match hexValue? c with
      | none => .error .badDigit
      | some digit =>
          if 16 * n + digit < 0x100000000 then hexOnto (16 * n + digit) rest else .error .tooLarge

def hexNumber : List Char → Except HexFault Nat
  | [] => .error .empty
  | '+' :: [] => .error .badDigit
  | '+' :: digits => hexOnto 0 digits
  | digits => hexOnto 0 digits

def codePoint (digits : List Char) : Except CodePointFault Char :=
  match hexNumber digits with
  | .error fault => .error (.badNumber digits fault)
  | .ok n => if h : n.isValidChar then .ok (Char.ofNatAux n h) else .error (.noCharacter n)

def simpleEscape? (c : Char) : Option Char :=
  match c with
  | 'a' => some '\x07'
  | 'b' => some '\x08'
  | 'v' => some '\x0b'
  | 'f' => some '\x0c'
  | 'n' => some '\n'
  | 'r' => some '\r'
  | 't' => some '\t'
  | 'e' => some '\x1b'
  | 'E' => some '\x1b'
  | c => if c ∈ ['\\', '\x27', '\x22', '$', '\x60', ' '] then some c else none

def decodeFrom (index : Nat) (text : List Char) : Except Fault (List Char) :=
  go [] index text
where
  go (seen : List Char) (index : Nat) : List Char → Except Fault (List Char)
    | [] => .ok seen.reverse
    | c :: rest =>
        if c == '"' then .ok seen.reverse
        else if c == '\\' then
          match rest with
          | [] => .error (.unknownEscape ['\\'] index)
          | 'u' :: '{' :: rest =>
              let digits := rest.takeWhile (· != '}')
              match codePoint digits with
              | .error fault => .error (.codePoint fault (index + 1))
              | .ok c => go (c :: seen) (index + 4 + digits.length)
                  ((rest.dropWhile (· != '}')).drop 1)
          | 'u' :: _ => .error (.codePoint .noBrace (index + 1))
          | c :: rest =>
              match simpleEscape? c with
              | none => .error (.unknownEscape ['\\', c] (index + 1))
              | some value => go (value :: seen) (index + 2) rest
        else go (c :: seen) (index + 1) rest
  termination_by text => text.length
  decreasing_by
    all_goals simp only [List.length_cons, List.length_drop]
    · have := (List.dropWhile_sublist (· != '}') (l := rest)).length_le
      omega
    · omega
    · omega

def decode (whole : List Char) : Except String (List Char) :=
  match decodeFrom 1 (whole.drop 1) with
  | .ok text => .ok text
  | .error fault => .error (fault.message whole)

def requoteInner : List Char → List Char
  | [] => []
  | '\\' :: '\x27' :: rest => '\x27' :: requoteInner rest
  | '\\' :: c :: rest => '\\' :: c :: requoteInner rest
  | ['\\'] => ['\\', '\\']
  | c :: rest => if c == '"' then '\\' :: '"' :: requoteInner rest else c :: requoteInner rest

def requote (whole : List Char) : List Char :=
  '"' :: (requoteInner ((whole.drop 1).dropLast) ++ ['"'])

example : decode "\"a\\u{e9}\\n\"".toList = .ok ['a', 'é', '\n'] := by cbv
example : decode (requote "'\\'\"'".toList) = .ok "'\"".toList := by cbv

end DocBlocks.Text.Quoted
