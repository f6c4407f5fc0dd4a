import DocBlocks.Diff.Shortest

/-!
The difference of two texts, line by line.
-/
namespace DocBlocks.Diff

def textLines (text : List Char) : List (List Char) := go [] text
where
  go (seen : List Char) : List Char → List (List Char)
    | [] => if seen.isEmpty then [] else [seen.reverse]
    | '\r' :: '\n' :: rest => ('\n' :: '\r' :: seen).reverse :: go [] rest
    | c :: rest =>
        if c = '\r' ∨ c = '\n' then (c :: seen).reverse :: go [] rest else go (c :: seen) rest

def ended (line : List Char) : List Char :=
  match line.getLast? with
  | some '\n' | some '\r' => line
  | _ => line ++ ['\n']

def ofTexts (old new : String) : List (Mark × String) :=
  (marked [] [] (edits (textLines old.toList) (textLines new.toList))).map fun (mark, line) =>
    (mark, String.ofList (ended line))

end DocBlocks.Diff
