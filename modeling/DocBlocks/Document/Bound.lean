import DocBlocks.Document.Session

/-!
Blocks bound to a generator, and how such a block is written: opening tag, body and closing tag.
-/
namespace DocBlocks

structure BoundBlock where
  block : Block
  arguments : Arguments
  generator : Generator
  grammar : CommentGrammar

namespace BoundBlock

def unusedNotice : Notice :=
  .warning "argument is not used by the generator and will be dropped"

def bind (plugin : Plugin) (grammar : CommentGrammar) (block : Block) :
    Except Error BoundBlock × List Notice :=
  let (supplied, notices) := Arguments.parseNoticed block.arguments
  match plugin.bind.run (.ofArguments block.command supplied) with
  | .ok (generator, binder) =>
      (.ok ⟨block, binder.declared, generator, grammar⟩,
        notices ++ binder.unused.map fun _ => unusedNotice)
  | .error e => (.error e, notices)

def openingTag (g : CommentGrammar) (command : String) (arguments : Arguments) : String :=
  g.opener.text ++ " MD+:" ++ command ++ " " ++
    (if arguments.isEmpty then "" else "\n" ++ arguments.toSource) ++ g.closer.text

def closingTag (g : CommentGrammar) (command : String) : String :=
  g.opener.text ++ " MD+FIN:" ++ command ++ " " ++ g.closer.text

def startTag (b : BoundBlock) : String := openingTag b.grammar b.block.command b.arguments

def endTag (b : BoundBlock) : String := closingTag b.grammar b.block.command

def entry (b : BoundBlock) (body : String) : String :=
  b.startTag ++ "\n" ++ body ++ "\n" ++ b.endTag

end BoundBlock

end DocBlocks
