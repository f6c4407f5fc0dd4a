import DocBlocks.Toml.Scalar

/-!
Reading TOML text: values, statements and whole documents.
-/
namespace DocBlocks.Toml

def skipAll? : Nat → List Char → Option (List Char)
  | 0, s => some s
  | fuel + 1, s =>
      let s := skipSpaces s
      match s with
      | '#' :: _ => do skipAll? fuel (← skipComment? s)
      | s =>
          match newline? s with
          | some rest => skipAll? fuel rest
          | none => some s

def key? : Nat → List String → List Char → Option (Key × List Char)
  | 0, _, _ => none
  | fuel + 1, before, s => do
      let (part, rest) ← simpleKey? (skipSpaces s)
      match skipSpaces rest with
      | '.' :: rest => key? fuel (part :: before) rest
      | rest => some (⟨before.reverse, part⟩, rest)

def endsScalar (c : Char) : Bool :=
  isSpace c || c == '\n' || c == '\r' || c == ',' || c == ']' || c == '}' || c == '#'

def readScalar? (s : List Char) : Option (Toml × List Char) :=
  let text := s.takeWhile (!endsScalar ·)
  let rest := s.drop text.length
  match rest with
  | ' ' :: c :: _ =>
      if isDate text ∧ text.contains '-' ∧ ¬ text.contains ':' ∧ Decimal.isDigit c then
        let time := (rest.drop 1).takeWhile (!endsScalar ·)
        (scalar? (text ++ ' ' :: time)).map (·, rest.drop (time.length + 1))
      else (scalar? text).map (·, rest)
  | rest => (scalar? text).map (·, rest)

mutual

def value? : Nat → List Char → Option (Toml × List Char)
  | 0, _ => none
  | fuel + 1, s =>
      match s with
      | '[' :: rest => do
          let (items, rest) ← items? fuel [] rest
          some (.array items, rest)
      | '{' :: rest => do
          let (entries, rest) ← fields? fuel [] rest
          some (.table .inline entries, rest)
      | '\x22' :: _ | '\x27' :: _ => (string? s).map fun (text, rest) => (.string text, rest)
      | s => readScalar? s

def items? : Nat → List Toml → List Char → Option (List Toml × List Char)
  | 0, _, _ => none
  | fuel + 1, seen, s => do
      match ← skipAll? s.length s with
      | ']' :: rest => some (seen.reverse, rest)
      | s =>
          let (item, rest) ← value? fuel s
          match ← skipAll? rest.length rest with
          | ',' :: rest => items? fuel (item :: seen) rest
          | ']' :: rest => some ((item :: seen).reverse, rest)
          | _ => none

def fields? : Nat → Entries → List Char → Option (Entries × List Char)
  | 0, _, _ => none
  | fuel + 1, entries, s => do
      match ← skipAll? s.length s with
      | '}' :: rest => some (entries, rest)
      | s =>
          let (key, rest) ← key? (s.length + 1) [] s
          let (value, rest) ← value? fuel (skipSpaces (← expect? '=' rest))
          let entries ← define key value entries
          match ← skipAll? rest.length rest with
          | ',' :: rest => fields? fuel entries rest
          | '}' :: rest => some (entries, rest)
          | _ => none

end

def statement? (s : List Char) : Option (Statement × List Char) := do
  let fuel := s.length + 1
  match s with
  | '[' :: '[' :: rest =>
      let (key, rest) ← key? fuel [] rest
      some (.item key, ← expect? ']' (← expect? ']' rest))
  | '[' :: rest =>
      let (key, rest) ← key? fuel [] rest
      some (.header key, ← expect? ']' rest)
  | s =>
      let (key, rest) ← key? fuel [] s
      let (value, rest) ← value? fuel (skipSpaces (← expect? '=' rest))
      some (.pair key value, rest)

def statements? : Nat → List Statement → List Char → Option (List Statement)
  | 0, _, _ => none
  | fuel + 1, seen, s => do
      match ← skipAll? s.length s with
      | [] => some seen.reverse
      | s =>
          let (statement, rest) ← statement? s
          match ← skipComment? (skipSpaces rest) with
          | [] => some (statement :: seen).reverse
          | rest => statements? fuel (statement :: seen) (← newline? rest)

def parse? (text : String) : Option Entries := do
  let s :=
    match text.toList with
    | '\uFEFF' :: rest => rest
    | s => s
  Document.ofStatements (← statements? (s.length + 1) [] s)

end DocBlocks.Toml
