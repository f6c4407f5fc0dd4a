import DocBlocks.Builtin.Contents
import DocBlocks.Builtin.GettingStarted
import DocBlocks.Generator.Registry

/-!
The plugins that are always there.
-/
namespace DocBlocks.Builtin

def plugins : List Plugin := [Contents.plugin, GettingStarted.plugin]

def registry : Registry := .ofPlugins plugins

end DocBlocks.Builtin
