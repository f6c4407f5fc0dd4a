import DocBlocks.Document.Bound

/-!
The fragments of a document: the text between blocks, the blocks that stay as they are and those bound
to a generator. Reserved and unclosed blocks stay, and so do blocks whose command has no single
generator or whose arguments cannot be read.
-/
namespace DocBlocks

inductive BlockStatus where
  | generated
  | reserved
  | unclosed
  | unresolved (reason : String)
  | failed (reason : String)
  deriving DecidableEq, Repr

structure BlockReport where
  command : String
  line : Nat
  column : Nat
  status : BlockStatus
  deriving DecidableEq, Repr

def Block.report (b : Block) (status : BlockStatus) : BlockReport :=
  ⟨b.command, b.opening.start.line, b.opening.start.column, status⟩

inductive Fragment where
  | between (start stop : Nat)
  | kept (block : Block) (status : BlockStatus)
  | bound (target : BoundBlock)

namespace Fragment

def range : Fragment → Nat × Nat
  | between start stop => (start, stop)
  | kept block _ => (block.span.start.offset, block.span.stop.offset)
  | bound target => (target.block.span.start.offset, target.block.span.stop.offset)

def original (text : List Char) (f : Fragment) : List Char := Text.slice f.range.1 f.range.2 text

def report? : Fragment → Option BlockReport
  | between _ _ => none
  | kept block status => some (block.report status)
  | bound target => some (target.block.report .generated)

def ofBlock (g : CommentGrammar) (block : Block) : Work Fragment := do
  Work.notify block.notice?.toList
  if block.isReserved then return kept block .reserved
  else if block.closing.isNone then return kept block .unclosed
  else
    match ← Work.resolve block.command with
    | .error e => return kept block (.unresolved e.message)
    | .ok plugin =>
        let (result, notices) := BoundBlock.bind plugin g block
        Work.notify notices
        match result with
        | .ok target => return bound target
        | .error e =>
            Work.notify [.error ("failed to bind generator: " ++ e.message)]
            return kept block (.failed e.message)

def gap (start stop : Nat) : List Fragment := if start < stop then [between start stop] else []

def ofBlocks (g : CommentGrammar) (size : Nat) : Nat → List Block → Work (List Fragment)
  | offset, [] => return gap offset size
  | offset, block :: rest => do
      let fragment ← ofBlock g block
      let later ← ofBlocks g size block.span.stop.offset rest
      return gap offset block.span.start.offset ++ fragment :: later

end Fragment

def Document.fragments (d : Document) (text : List Char) : Work (List Fragment) :=
  Fragment.ofBlocks d.grammar (Text.size text) 0 (Block.findAll d.grammar text)

end DocBlocks
