import DocBlocks.Files.Lookup
import DocBlocks.Toml.Reader
import DocBlocks.Workspace.Basic

/-!
The configuration of a workspace: how it is scanned, as a TOML file below its root says.
-/
namespace DocBlocks.Config

def candidates : List String := ["mdplus.toml", ".mdplus.toml", ".config/mdplus.toml"]

def path? (files : Files) (root : Path) : Option Path :=
  (candidates.map root.child).find? files.isFile

def maxSize : Int := Int.pow 2 64 - 1

/-- Whether a number that no field reads is in the range of what can be read at all. -/
def isReadable (n : Int) : Bool := decide (-Int.pow 2 127 ≤ n) && decide (n < Int.pow 2 128)

mutual

def isSound : Toml → Bool
  | .integer n => isReadable n
  | .array items => areSound items
  | .table _ entries => entriesSound entries
  | .tables items => tablesSound items
  | _ => true

def areSound : List Toml → Bool
  | [] => true
  | item :: rest => isSound item && areSound rest

def entriesSound : List (String × Toml) → Bool
  | [] => true
  | (_, value) :: rest => isSound value && entriesSound rest

def tablesSound : List (List (String × Toml)) → Bool
  | [] => true
  | entries :: rest => entriesSound entries && tablesSound rest

end

def string? : Toml → Option String
  | .string text => some text
  | _ => none

def boolean? : Toml → Option Bool
  | .boolean b => some b
  | _ => none

def size? : Toml → Option Nat
  | .integer n => if 0 ≤ n ∧ n ≤ maxSize then some n.toNat else none
  | _ => none

def strings? : Toml → Option (List String)
  | .array items => items.mapM string?
  | _ => none

def field {α : Type} (read? : Toml → Option α) (default : α) (key : String)
    (entries : Toml.Entries) : Option α :=
  match Toml.get? key entries with
  | some value => read? value
  | none => some default

/-- The patterns of the section on what to leave out. Written as an array, the section has its fields as
items in order; a date has no fields. -/
def patterns? : Toml → Option (List String)
  | .table _ entries => field strings? [] "patterns" entries
  | .array [] => some []
  | .array (first :: _) => strings? first
  | .date => some []
  | _ => none

def ofEntries? (entries : Toml.Entries) : Option ScanOptions := do
  let default : ScanOptions := {}
  if !entriesSound entries then none
  some {
    excludePatterns := ← field patterns? default.excludePatterns "exclude" entries
    ignoreMarker := ← field string? default.ignoreMarker "ignore_marker" entries
    maxFileSize := ← field size? default.maxFileSize "max_file_size" entries
    disableGitignore := ← field boolean? default.disableGitignore "disable_gitignore" entries }

def parse (text : String) : Except Error ScanOptions :=
  match (Toml.parse? text).bind ofEntries? with
  | some options => .ok options
  | none => .error (.config .malformed)

def load (files : Files) (root : Path) : Except Error (Option ScanOptions) :=
  match path? files root with
  | none => .ok none
  | some path => do
      let text ← files.read path
      some <$> parse text

end DocBlocks.Config
