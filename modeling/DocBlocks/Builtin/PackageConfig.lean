import DocBlocks.Text.Blank
import DocBlocks.Text.Escaped

/-!
The package configuration: a file of sections with assignments, of which the id in the section `info` is
wanted. Lines are read in order and the first problem counts.
-/
namespace DocBlocks

inductive IniLine where
  | section (name : String)
  | assignment (key value : String)
  | nothing
  deriving DecidableEq, Repr

inductive PackageFault where
  | unclosedSection
  | bracketInSection
  | noAssignment
  | missing (field : String)
  | duplicate (field : String)
  | notASection (value : String)
  deriving DecidableEq, Repr

namespace PackageFault

def message : PackageFault → String
  | unclosedSection => "INI syntax error: section missing ']'"
  | bracketInSection => "INI syntax error: section name contains ']'"
  | noAssignment => "INI syntax error: variable assignment missing '='"
  | missing field => "missing field \x60" ++ field ++ "\x60"
  | duplicate field => "duplicate field \x60" ++ field ++ "\x60"
  | notASection value =>
      "invalid type: string " ++ Text.escaped value ++ ", expected struct PakkInfo"

end PackageFault

namespace IniLine

def parse (line : List Char) : Except PackageFault IniLine :=
  match line with
  | [] => .ok .nothing
  | '[' :: rest =>
      match rest.reverse with
      | ']' :: name =>
          if name.contains ']' then .error .bracketInSection
          else .ok (.section (String.ofList name.reverse))
      | _ => .error .unclosedSection
  | ';' :: _ | '#' :: _ => .ok .nothing
  | line =>
      let key := line.takeWhile (· != '=')
      match line.drop key.length with
      | _ :: value =>
          .ok (.assignment (String.ofList (Text.trim key)) (String.ofList (Text.trim value)))
      | [] => .error .noAssignment

end IniLine

namespace PackageConfig

inductive Section where
  | none
  | info (id : Option String)
  | other
  deriving DecidableEq, Repr

structure State where
  current : Section
  id : Option String
  deriving DecidableEq, Repr

def close (s : State) : Except PackageFault State :=
  match s.current with
  | .info (some id) => .ok ⟨.none, some id⟩
  | .info none => .error (.missing "id")
  | _ => .ok { s with current := .none }

def step (s : State) (line : List Char) : Except PackageFault State := do
  match ← IniLine.parse line, s.current with
  | .nothing, _ => .ok s
  | .section name, _ =>
      let s ← close s
      if name = "info" then
        if s.id.isSome then .error (.duplicate "info") else .ok { s with current := .info none }
      else .ok { s with current := .other }
  | .assignment key value, .none =>
      if key = "info" then .error (.notASection value) else .ok s
  | .assignment key value, .info id =>
      if key = "id" then
        if id.isSome then .error (.duplicate "id") else .ok { s with current := .info (some value) }
      else .ok s
  | .assignment _ _, .other => .ok s

def id (text : String) : Except PackageFault String := do
  let s ← (Text.lines text.toList).foldlM step ⟨.none, none⟩
  let s ← close s
  match s.id with
  | some id => .ok id
  | none => .error (.missing "info")

def shortName (id : String) : String :=
  String.ofList ((Text.pieces (· == '/') id.toList).getLastD [])

end PackageConfig

end DocBlocks
