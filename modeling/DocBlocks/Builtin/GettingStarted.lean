import DocBlocks.Builtin.PackageConfig
import DocBlocks.Generator.Plugin

/-!
The generator of instructions for installing and starting the package that a package configuration
describes.
-/
namespace DocBlocks.GettingStarted

def command : String := "generate.getting_started.pakk"

def configName : String := "pakk.cfg"

def defaultHeader : String :=
  "# Getting Started using [pakk](https://github.com/iCampus-Wildau/pakk)"

structure Choices where
  header : String
  installation : Bool
  usage : Bool
  deriving DecidableEq, Repr

def configPath? (c : Context) : Option Path :=
  [c.document.directory.child configName, c.workspace.root.child configName].find? c.files.isFile

def packageId (c : Context) (path : Path) : Except Error String := do
  let text ← c.files.read path
  match PackageConfig.id text with
  | .ok id => .ok id
  | .error fault =>
      .error <| .generator command <|
        "invalid " ++ path.text ++ ": Custom(" ++ Text.escaped fault.message ++ ")"

def fence : String := "\x60\x60\x60"

def introduction : String :=
  "Using [pakk](https://github.com/iCampus-Wildau/pakk) package manager is recommended for " ++
    "automating the installation and management of ROS 2 packages.\n"

def installation (id : String) : List String :=
  ["Installation with pakk:", fence ++ "bash", "pakk install " ++ id, fence ++ "\n"]

def usage (name : String) : List String :=
  ["After the installation completes, start the " ++ name ++ " package:", fence ++ "bash",
    "pakk start " ++ name ++ "  # Start the package until being stopped or system reboot, or ...",
    "pakk enable " ++ name ++ "  # ... start it now and on every system boot.", fence ++ "\n"]

def instructions (choices : Choices) (id : String) : String :=
  "\n".intercalate <|
    [choices.header, introduction] ++
    (if choices.installation then installation id else []) ++
    (if choices.usage then usage (PackageConfig.shortName id) else [])

def render (choices : Choices) : Generator := fun c =>
  match configPath? c with
  | none =>
      throw <| .generator command <|
        "no " ++ configName ++ " found next to the document or at the workspace root"
  | some path =>
      match packageId c path with
      | .ok id => return instructions choices id
      | .error e => throw e

def plugin : Plugin where
  info :=
    { command
      description := "Getting started instructions for a pakk package"
      parameters :=
        [⟨"header", "Heading placed above the instructions", some (Text.escaped defaultHeader)⟩,
          ⟨"installation", "Include the installation command", some "True"⟩,
          ⟨"usage", "Include the start and enable commands", some "True"⟩] }
  bind := do
    let header ← Reading.header defaultHeader
    let installation ← Reading.get "installation" (.bool true)
    let usage ← Reading.get "usage" (.bool true)
    return render ⟨header, installation, usage⟩

end DocBlocks.GettingStarted
