import DocBlocks.Decimal.Reading

/-!
The texts of TOML: keys and strings between quotes. Every reader gives back what follows it.
-/
namespace DocBlocks.Toml

def isSpace (c : Char) : Bool := c == ' ' || c == '\t'

def skipSpaces (s : List Char) : List Char := s.dropWhile isSpace

def isPlain (c : Char) : Bool := c == '\t' || (0x20 ≤ c.toNat && c.toNat != 0x7F)

def newline? : List Char → Option (List Char)
  | '\n' :: rest => some rest
  | '\r' :: '\n' :: rest => some rest
  | _ => none

def skipComment? : List Char → Option (List Char)
  | '#' :: rest =>
      let after := rest.dropWhile isPlain
      if after.isEmpty || (newline? after).isSome then some after else none
  | s => some s

def hexDigit? (c : Char) : Option Nat :=
  let n := c.toNat
  if '0' ≤ c ∧ c ≤ '9' then some (n - '0'.toNat)
  else if 'a' ≤ c ∧ c ≤ 'f' then some (n - 'a'.toNat + 10)
  else if 'A' ≤ c ∧ c ≤ 'F' then some (n - 'A'.toNat + 10)
  else none

def codePoint? (digits : Nat) (s : List Char) : Option (Char × List Char) := do
  if (s.take digits).length < digits then none
  let values ← (s.take digits).mapM hexDigit?
  let n := values.foldl (fun n v => 16 * n + v) 0
  if n.isValidChar then some (Char.ofNat n, s.drop digits) else none

def escape? : List Char → Option (Char × List Char)
  | 'b' :: rest => some ('\x08', rest)
  | 't' :: rest => some ('\t', rest)
  | 'n' :: rest => some ('\n', rest)
  | 'f' :: rest => some ('\x0c', rest)
  | 'r' :: rest => some ('\r', rest)
  | 'e' :: rest => some ('\x1b', rest)
  | '\x22' :: rest => some ('\x22', rest)
  | '\\' :: rest => some ('\\', rest)
  | 'x' :: rest => codePoint? 2 rest
  | 'u' :: rest => codePoint? 4 rest
  | 'U' :: rest => codePoint? 8 rest
  | _ => none

def continued? (s : List Char) : Option (List Char) :=
  match newline? (skipSpaces s) with
  | some rest => some (rest.dropWhile fun c => isSpace c || c == '\n' || c == '\r')
  | none => none

def basic? : Nat → List Char → List Char → Option (String × List Char)
  | _, seen, '\x22' :: rest => some (String.ofList seen.reverse, rest)
  | fuel + 1, seen, '\\' :: rest => do
      let (c, rest) ← escape? rest
      basic? fuel (c :: seen) rest
  | fuel + 1, seen, c :: rest => if isPlain c then basic? fuel (c :: seen) rest else none
  | _, _, _ => none

def literal? (s : List Char) : Option (String × List Char) :=
  let inside := s.takeWhile fun c => isPlain c && c != '\x27'
  match s.drop inside.length with
  | '\x27' :: rest => some (String.ofList inside, rest)
  | _ => none

/-- The end of a long string: of three to five quotes the last three close it, and those before belong
to it. -/
def longEnd? (quote : Char) (s : List Char) : Option (List Char × List Char) :=
  let count := min 5 (s.takeWhile (· == quote)).length
  if count < 3 then none else some (List.replicate (count - 3) quote, s.drop count)

def long? (quote : Char) (isBasic : Bool) : Nat → List Char → List Char → Option (String × List Char)
  | 0, _, _ => none
  | fuel + 1, seen, s =>
      match longEnd? quote s with
      | some (quotes, rest) => some (String.ofList (seen.reverse ++ quotes), rest)
      | none =>
          match s with
          | [] => none
          | c :: rest =>
              match newline? s with
              | some rest => long? quote isBasic fuel ('\n' :: seen) rest
              | none =>
                  if c = '\\' ∧ isBasic then
                    match continued? rest with
                    | some rest => long? quote isBasic fuel seen rest
                    | none =>
                        match escape? rest with
                        | some (c, rest) => long? quote isBasic fuel (c :: seen) rest
                        | none => none
                  else if isPlain c then long? quote isBasic fuel (c :: seen) rest
                  else none

def dropFirstNewline (s : List Char) : List Char := (newline? s).getD s

def string? (s : List Char) : Option (String × List Char) :=
  match s with
  | '\x22' :: '\x22' :: '\x22' :: rest => long? '\x22' true (s.length + 1) [] (dropFirstNewline rest)
  | '\x27' :: '\x27' :: '\x27' :: rest => long? '\x27' false (s.length + 1) [] (dropFirstNewline rest)
  | '\x22' :: rest => basic? s.length [] rest
  | '\x27' :: rest => literal? rest
  | _ => none

def isBareKey (c : Char) : Bool := c.isAlphanum || c == '_' || c == '-'

def simpleKey? (s : List Char) : Option (String × List Char) :=
  match s with
  | '\x22' :: rest => basic? s.length [] rest
  | '\x27' :: rest => literal? rest
  | _ =>
      let bare := s.takeWhile isBareKey
      if bare.isEmpty then none else some (String.ofList bare, s.drop bare.length)

end DocBlocks.Toml
