import DocBlocks.Position
import DocBlocks.Notice
import DocBlocks.Error
import DocBlocks.Comment

/-!
Blocks: the stretches of a text between an opening tag, which names a command, and its closing tag.
-/
namespace DocBlocks

structure Opening where
  command : String
  arguments : String
  position : Position
  deriving DecidableEq, Repr

/-- A block. Its span reaches from the opening tag to the closing tag; without one it covers the rest of
the text, or the opening tag alone if the command is reserved. -/
structure Block where
  command : String
  arguments : String
  opening : Position
  closing : Option Position
  span : Position
  deriving DecidableEq, Repr

def reservedCommands : List String := ["META", "TODO", "TODO:"]

def isReservedCommand (command : String) : Bool :=
  reservedCommands.contains (command.map Char.toUpper)

def isCommandStart (c : Char) : Bool := c.isAlpha || c == '_'

def isCommandPart (c : Char) : Bool := c.isAlphanum || c == '_'

def isValidCommand (command : String) : Bool :=
  (Text.pieces (· == '.') command.toList).all fun
    | [] => false
    | first :: rest => isCommandStart first && rest.all isCommandPart

namespace Block

def isReserved (b : Block) : Bool := isReservedCommand b.command

def isLiteral (b : Block) : Bool := b.isReserved || b.closing.isNone

def body? (b : Block) : Option (Nat × Nat) :=
  b.closing.map fun closing => (b.opening.stop.offset, closing.start.offset)

def notice? (b : Block) : Option Notice :=
  if b.closing.isNone && !b.isReserved then
    some <| .warning <| (Error.missingClosingTag b.command b.opening.start.line).message ++
      ", leaving the rest of the document untouched"
  else none

end Block

end DocBlocks
