import DocBlocks.Block.Basic
import DocBlocks.Files.Lookup
import DocBlocks.Generator.Binder
import DocBlocks.Generator.Inquiry
import DocBlocks.Workspace.Basic

/-!
Generators and the plugins that make them. A plugin reads the arguments of a block and gives back a
generator, which renders the body of that block.
-/
namespace DocBlocks

structure Context where
  files : Files
  workspace : Workspace
  document : Document
  block : Block

namespace Context

def resolve (c : Context) (relative : String) : Path :=
  (c.document.directory.join ⟨relative⟩).normalize

end Context

abbrev Generator := Context → ExceptT Error Inquiry String

structure Parameter where
  name : String
  description : String
  default : Option String
  deriving DecidableEq, Repr

structure PluginInfo where
  command : String
  description : String
  parameters : List Parameter
  deriving DecidableEq, Repr

structure Plugin where
  info : PluginInfo
  bind : Reading Generator

end DocBlocks
