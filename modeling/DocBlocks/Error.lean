/-!
What can go wrong outside the argument language, with the wording, the code and the advice given to the
user.
-/
namespace DocBlocks

inductive FileError where
  | notFound
  | notADirectory
  | isADirectory
  | tooManyLinks
  | invalidText
  deriving DecidableEq, Repr

def FileError.message : FileError → String
  | notFound => "No such file or directory (os error 2)"
  | notADirectory => "Not a directory (os error 20)"
  | isADirectory => "Is a directory (os error 21)"
  | tooManyLinks => "Too many levels of symbolic links (os error 40)"
  | invalidText => "stream did not contain valid UTF-8"

inductive ConfigFault where
  | malformed
  | badPattern (pattern : String)
  deriving DecidableEq, Repr

inductive Error where
  | file (error : FileError)
  | rootNotFound (path : String)
  | config (fault : ConfigFault)
  | unknownGenerator (command : String)
  | ambiguousGenerator (command : String) (count : Nat)
  | invalidCommand (command : String)
  | argumentType (name expected found : String)
  | missingClosingTag (command : String) (line : Nat)
  | generator (command reason : String)
  | fileTooLarge (path : String) (size limit : Nat)
  | symlinkCycle (path : String)
  deriving DecidableEq, Repr

namespace Error

def marked (text : String) : String := "\x60" ++ text ++ "\x60"

def message : Error → String
  | file error => error.message
  | rootNotFound path =>
      "workspace root " ++ marked path ++ " does not exist or is not a directory"
  | config .malformed => "failed to parse config file"
  | config (.badPattern pattern) =>
      "failed to parse config file: invalid exclude pattern " ++ marked pattern
  | unknownGenerator command => "no generator registered for command " ++ marked command
  | ambiguousGenerator command count =>
      "ambiguous generator entry point for command " ++ marked command ++ ": " ++
        toString count ++ " registrations"
  | invalidCommand command => "invalid command name: " ++ marked command
  | argumentType name expected found =>
      "argument " ++ marked name ++ " expected " ++ expected ++ ", found " ++ found
  | missingClosingTag command line =>
      "missing closing tag for block: " ++ marked command ++ " at line " ++ toString line
  | generator command reason => "generator " ++ marked command ++ " failed: " ++ reason
  | fileTooLarge path size limit =>
      "file too large: " ++ marked path ++ " is " ++ toString size ++ " bytes (limit: " ++
        toString limit ++ " bytes)"
  | symlinkCycle path => "symlink cycle detected at: " ++ marked path

def code : Error → String
  | file _ => "mdplus::io_error"
  | rootNotFound _ => "mdplus::root_not_found"
  | config _ => "mdplus::config_parse"
  | unknownGenerator _ => "mdplus::unknown_generator"
  | ambiguousGenerator _ _ => "mdplus::ambiguous_generator"
  | invalidCommand _ => "mdplus::invalid_command"
  | argumentType _ _ _ => "mdplus::argument_type"
  | missingClosingTag _ _ => "mdplus::missing_closing_tag"
  | generator _ _ => "mdplus::generator"
  | fileTooLarge _ _ _ => "mdplus::file_too_large"
  | symlinkCycle _ => "mdplus::symlink_cycle"

def help? : Error → Option String
  | rootNotFound _ => some ("pass an existing directory with " ++ marked "--root")
  | config _ => some "check that mdplus.toml is valid TOML with an optional [exclude] section"
  | unknownGenerator _ =>
      some ("run " ++ marked "mdplus generators" ++ " to list the registered commands")
  | ambiguousGenerator _ _ => some "register exactly one generator per command"
  | invalidCommand _ =>
      some ("commands are dotted identifiers such as " ++ marked "generate.content")
  | missingClosingTag command _ =>
      some ("add " ++ marked ("<!-- MD+FIN:" ++ command ++ " -->") ++ " to close this block")
  | fileTooLarge _ _ _ =>
      some ("increase " ++ marked "max_file_size" ++ " in mdplus.toml or exclude this file")
  | symlinkCycle _ => some "remove the circular symlink or exclude this path"
  | file _ | argumentType _ _ _ | generator _ _ => none

instance : MonadLift (Except FileError) (Except Error) := ⟨Except.mapError .file⟩

end Error

end DocBlocks
