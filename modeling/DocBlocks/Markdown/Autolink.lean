import DocBlocks.Markdown.Line
import DocBlocks.Markdown.Neighbour

/-!
Addresses that are links as they stand: between angle brackets, and bare ones that begin with a protocol or
with `www.`. A link of this kind shows its address, in which no other mark means anything; punctuation at the
end of a bare address does not belong to it.
-/
namespace DocBlocks.Markdown.Autolink

def isUri (s : List Char) : Bool :=
  let scheme := s.takeWhile fun c => c.isAlphanum || c == '+' || c == '.' || c == '-'
  scheme.head?.any Char.isAlpha && 2 ≤ scheme.length && scheme.length ≤ 32 &&
    match s.drop scheme.length with
    | ':' :: rest => rest.all fun c => c != '<' && 0x20 < c.toNat && c.toNat != 0x7F
    | _ => false

def isDomainPart (part : List Char) : Bool :=
  part.head?.any Char.isAlphanum && part.getLast?.any Char.isAlphanum && part.length ≤ 63 &&
    part.all fun c => c.isAlphanum || c == '-'

def isMail (s : List Char) : Bool :=
  let mailbox := s.takeWhile (· != '@')
  !mailbox.isEmpty && mailbox.all (fun c => c.isAlphanum || "#$%&'*+-/=?^_\x60\x7b|\x7d~.".toList.contains c) &&
    match s.drop mailbox.length with
    | '@' :: domain => (Text.pieces (· == '.') domain).all isDomainPart
    | _ => false

def bracketed? (s : List Char) : Option (List Char) :=
  let address := s.takeWhile (· != '>')
  if (s.drop address.length).head? = some '>' && (isUri address || isMail address) then some address else none

inductive TrailState where
  | marks | reference (hasLetters : Bool) | bracket
  deriving DecidableEq

/-- Whether only punctuation stands between here and the end of an address. A character reference counts
as punctuation, and so does a closing bracket that neither a resource nor a reference follows. -/
def isTrail (state : TrailState) : List Char → Bool
  | [] => state == .marks || state == .bracket
  | c :: rest =>
      match state with
      | .reference hasLetters =>
          if c == ';' && hasLetters then isTrail .marks rest else c.isAlpha && isTrail (.reference true) rest
      | state =>
          if c == '<' || Text.isBlank c then true
          else if state == .bracket && (c == '(' || c == '[') then true
          else if "!\"')*,.:;?_~".toList.contains c then isTrail .marks rest
          else if c == '&' then isTrail (.reference false) rest
          else if c == ']' then isTrail .bracket rest
          else false

structure Domain where
  hasName : Bool
  underscore : Bool
  underscoreBefore : Bool

def domainEnd? (seen : Domain) : List Char → Option (List Char)
  | [] => finish []
  | c :: rest =>
      if c == '.' || c == '_' then
        if isTrail .marks (c :: rest) then finish (c :: rest)
        else if c == '_' then domainEnd? { seen with underscore := true } rest
        else domainEnd? ⟨seen.hasName, false, seen.underscore⟩ rest
      else if c == '-' then domainEnd? seen rest
      else if Neighbour.of (some c) = .other then domainEnd? { seen with hasName := true } rest
      else finish (c :: rest)
where
  finish (rest : List Char) : Option (List Char) :=
    if seen.hasName && !seen.underscore && !seen.underscoreBefore then some rest else none

def pathEnd (opened closed : Nat) : List Char → List Char
  | [] => []
  | c :: rest =>
      if c == '(' then pathEnd (opened + 1) closed rest
      else if Text.isBlank c then c :: rest
      else if "!\"&')*,.:;<?_~]".toList.contains c then
        if isTrail .marks (c :: rest) && !(c == ')' && closed < opened) then c :: rest
        else pathEnd opened (if c == ')' then closed + 1 else closed) rest
      else pathEnd opened closed rest

def beginsWith (letters : String) (s : List Char) : Bool :=
  letters.toList.isPrefixOf ((s.take letters.length).map Char.toLower)

def mayPrecede : Option Char → Bool
  | none => true
  | some c => isSpace c || isLineEnd c || "(*_[]~".toList.contains c

def bareLength? (previous : Option Char) (s : List Char) : Option Nat := do
  let domain ←
    if beginsWith "https://" s && !previous.any Char.isAlpha then some (s.drop 8)
    else if beginsWith "http://" s && !previous.any Char.isAlpha then some (s.drop 7)
    else if beginsWith "www." s && mayPrecede previous && 4 < s.length then some s
    else none
  let path ← domainEnd? ⟨false, false, false⟩ domain
  return s.length - (pathEnd 0 0 path).length

example : isTrail .marks ['.', ')'] = true := by decide

end DocBlocks.Markdown.Autolink
