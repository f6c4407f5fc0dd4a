import DocBlocks.Document.Leading
import DocBlocks.Generator.Registry

/-!
What is kept while documents are processed: the registry, the leading arguments that were read, and the
notices so far. Leading arguments are read once for each document, so a later change of the file does
not show.
-/
namespace DocBlocks

structure Session where
  registry : Registry
  leading : List (Path × Arguments)
  notices : List Notice

abbrev Work := StateM Session

namespace Session

def start (registry : Registry) : Session := ⟨registry, [], []⟩

def forget (s : Session) : Session := { s with leading := [] }

end Session

namespace Work

def notify (notices : List Notice) : Work Unit :=
  modify fun s => { s with notices := s.notices ++ notices }

def resolve (command : String) : Work (Except Error Plugin) := do
  let (result, registry, notices) := (← get).registry.resolve command
  modify fun s => { s with registry }
  notify notices
  return result

def readLeading (files : Files) (d : Document) : Arguments × List Notice :=
  match files.read d.path with
  | .ok text => Leading.arguments d.grammar text.toList
  | .error _ => (.empty, [])

def leading (files : Files) (d : Document) : Work Arguments := do
  match (← get).leading.lookup d.path with
  | some arguments => return arguments
  | none =>
      let (arguments, notices) := readLeading files d
      modify fun s => { s with leading := (d.path, arguments) :: s.leading }
      notify notices
      return arguments

def answer {α : Type} (files : Files) : Inquiry α → Work α
  | .done result => return result
  | .ask d next => do answer files (next (← leading files d))

end Work

end DocBlocks
