import DocBlocks.Generator.Plugin
import DocBlocks.Notice
import DocBlocks.Sorted

/-!
The plugins that are registered for commands. A failed look-up is reported once for each command.
-/
namespace DocBlocks

structure Registry where
  plugins : List Plugin
  reported : List String

namespace Registry

def empty : Registry := ⟨[], []⟩

def register (r : Registry) (plugin : Plugin) : Registry × List Notice :=
  if isValidCommand plugin.info.command then ({ r with plugins := r.plugins ++ [plugin] }, [])
  else (r, [.error "refusing to register generator with an invalid command"])

def ofPlugins (plugins : List Plugin) : Registry :=
  plugins.foldl (fun r plugin => (r.register plugin).1) empty

def registered (r : Registry) (command : String) : List Plugin :=
  r.plugins.filter (·.info.command == command)

def lookup (r : Registry) (command : String) : Except Error Plugin :=
  if isValidCommand command then
    match r.registered command with
    | [] => .error (.unknownGenerator command)
    | [plugin] => .ok plugin
    | several => .error (.ambiguousGenerator command several.length)
  else .error (.invalidCommand command)

def lookupNotice : Error → Notice
  | .ambiguousGenerator command count => .error (Error.ambiguousGenerator command count).message
  | e => .warning e.message

def resolve (r : Registry) (command : String) : Except Error Plugin × Registry × List Notice :=
  match r.lookup command with
  | .ok plugin => (.ok plugin, r, [])
  | .error e =>
      if r.reported.contains command then (.error e, r, [])
      else (.error e, { r with reported := r.reported ++ [command] }, [lookupNotice e])

def contains (r : Registry) (command : String) : Bool :=
  r.plugins.any (·.info.command == command)

def commands (r : Registry) : List String :=
  r.plugins.foldl (fun sorted plugin => Sorted.put compare plugin.info.command sorted) []

def infos (r : Registry) : List PluginInfo :=
  Sorted.ofList (fun a b => compare a.command b.command) (r.plugins.map (·.info))

def size (r : Registry) : Nat := r.plugins.length

def isEmpty (r : Registry) : Bool := r.plugins.isEmpty

end Registry

end DocBlocks
