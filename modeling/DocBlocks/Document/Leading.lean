import DocBlocks.Arguments.Binding
import DocBlocks.Block.Scanner

/-!
The leading comment of a text and the arguments in its first opening tag. Only blank lines may stand
before the comment.
-/
namespace DocBlocks.Leading

def untilClosed (g : CommentGrammar) : List (List Char) → List (List Char)
  | [] => []
  | line :: rest => if g.closesLine line then [line] else line :: untilClosed g rest

def comment (g : CommentGrammar) : List (List Char) → List (List Char)
  | [] => []
  | line :: rest =>
      if Text.isBlankText line then comment g rest
      else
        match g.lineOpener? line with
        | none => []
        | some (_, inside) =>
            if g.closesLine inside then [line] else line :: untilClosed g rest

def opening? (g : CommentGrammar) (text : List Char) : Option Opening :=
  let header := Text.joined ['\n'] (comment g (Text.lines text))
  (Scanner.ofText g header).nextOpening.1

def arguments (g : CommentGrammar) (text : List Char) : Arguments × List Notice :=
  match opening? g text with
  | some opening => Arguments.parseNoticed opening.arguments
  | none => (.empty, [])

end DocBlocks.Leading
