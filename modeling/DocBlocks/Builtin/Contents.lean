import DocBlocks.Generator.Plugin
import DocBlocks.Markdown.Summary
import DocBlocks.Markdown.Table

/-!
The generator of a table of contents: one row for each directory in a directory, with what its README
says about it.
-/
namespace DocBlocks.Contents

def command : String := "generate.content"

def defaultHeader : String := "# Contents of this Repository"

def columns : List String := ["Dir", "Content"]

def describe (c : Context) (directory : Directory) : ExceptT Error Inquiry String := do
  match c.workspace.readme? directory.path with
  | none => return directory.name
  | some readme =>
      match (← Inquiry.leading readme).get? "title" with
      | none | some .null =>
          match c.files.read readme.path with
          | .ok text => return (Markdown.summary? text.toList).getD directory.name
          | .error e => throw (.file e)
      | some title => return title.display

def isListed (name : String) : Bool := !(name.toList.head? == some '.' || name.toList.head? == some '_')

def listed (w : Workspace) (directory : Directory) : List Directory :=
  (directory.directories.filterMap w.directory?).filter fun below => isListed below.name

def row (c : Context) (directory : Directory) : ExceptT Error Inquiry (List String) := do
  let description ← describe c directory
  let name := directory.name
  return ["[\x60" ++ name ++ "\x60](" ++ name ++ ")", description]

def render (header path : String) : Generator := fun c => do
  let directoryPath := c.resolve path
  match c.workspace.directory? directoryPath with
  | none =>
      throw <| .generator command <|
        "directory " ++ Error.marked directoryPath.text ++ " is not part of the workspace"
  | some directory =>
      let rows ← (listed c.workspace directory).mapM (row c)
      return header ++ "\n\n" ++ Markdown.table columns rows

def plugin : Plugin where
  info :=
    { command
      description := "Table of the subdirectories of a directory"
      parameters :=
        [⟨"header", "Heading placed above the table", some (Text.escaped defaultHeader)⟩,
          ⟨"path", "Directory to list, relative to the document", some (Text.escaped ".")⟩] }
  bind := do
    let header ← Reading.header defaultHeader
    let path ← Reading.get "path" (.string ".")
    return render header path

end DocBlocks.Contents
