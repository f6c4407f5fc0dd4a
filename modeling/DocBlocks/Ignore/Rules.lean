import DocBlocks.Files.Basic
import DocBlocks.Ignore.Glob
import DocBlocks.Path
import DocBlocks.Text.Blank

/-!
Ignore rules: lines with patterns for the paths below a directory. Of the rules that match a path the
last one decides; a rule that begins with `!` takes a path back in.
-/
namespace DocBlocks

structure IgnoreRule where
  glob : Glob
  negated : Bool
  directoriesOnly : Bool

inductive IgnoreLine where
  | nothing
  | malformed
  | rule (rule : IgnoreRule)

namespace IgnoreLine

def dropLastSlash (pattern : List Char) : Bool × List Char :=
  match pattern.reverse with
  | '/' :: '\\' :: rest => (true, rest.reverse)
  | '/' :: rest => (true, rest.reverse)
  | _ => (false, pattern)

/-- The pattern for whole paths. One without a slash matches in every directory, and what stands below a
directory does not take the directory itself in. -/
def wholePattern (anchored : Bool) (pattern : List Char) : List Char :=
  let hasPlace := anchored || pattern.contains '/' || pattern == ['*', '*']
  let pattern := if hasPlace then pattern else '*' :: '*' :: '/' :: pattern
  if ['/', '*', '*'].isSuffixOf pattern then pattern ++ ['/', '*'] else pattern

def rule? (negated anchored : Bool) (pattern : List Char) : IgnoreLine :=
  let (directoriesOnly, pattern) := dropLastSlash pattern
  match Glob.parse? (wholePattern anchored pattern) with
  | some glob => .rule ⟨glob, negated, directoriesOnly⟩
  | none => .malformed

def parse (line : List Char) : IgnoreLine :=
  if line.head? = some '#' then .nothing
  else
    -- a blank at the end counts only behind a backslash
    let line := if ['\\', ' '].isSuffixOf line then line else Text.trimEnd line
    match line with
    | [] => .nothing
    | '\\' :: '!' :: rest => rule? false false ('!' :: rest)
    | '\\' :: '#' :: rest => rule? false false ('#' :: rest)
    | '!' :: '/' :: rest => rule? true true rest
    | '!' :: rest => rule? true false rest
    | '/' :: rest => rule? false true rest
    | rest => rule? false false rest

end IgnoreLine

structure IgnoreRules where
  directory : Path
  rules : List IgnoreRule

namespace IgnoreRules

def none (directory : Path) : IgnoreRules := ⟨directory, []⟩

def ignores (r : IgnoreRules) (path : Path) (isDirectory : Bool) : Bool :=
  let bytes := (path.relativeText r.directory).toUTF8.toList
  match r.rules.reverse.find? fun rule =>
      rule.glob.isMatch bytes && (!rule.directoriesOnly || isDirectory) with
  | some rule => !rule.negated
  | Option.none => false

def ofLines (directory : Path) (lines : List (List Char)) : IgnoreRules × Bool :=
  let read := lines.map IgnoreLine.parse
  (⟨directory, read.filterMap fun
      | .rule rule => some rule
      | _ => Option.none⟩,
    read.all fun
      | .malformed => false
      | _ => true)

def ofPatterns (directory : Path) (patterns : List String) : Except String IgnoreRules := do
  let rules ← patterns.filterMapM fun pattern =>
    match IgnoreLine.parse pattern.toList with
    | .nothing => .ok Option.none
    | .malformed => .error pattern
    | .rule rule => .ok (some rule)
  .ok ⟨directory, rules⟩

def byteLines (bytes : List UInt8) : List (List UInt8) := go [] bytes
where
  go (seen : List UInt8) : List UInt8 → List (List UInt8)
    | [] => if seen.isEmpty then [] else [seen.reverse]
    | b :: rest => if b = 0x0A then seen.reverse :: go [] rest else go (b :: seen) rest

def textLines : List (List UInt8) → List (List Char) × Bool
  | [] => ([], true)
  | line :: rest =>
      match Content.ofBytes line with
      | .text text =>
          let (lines, allText) := textLines rest
          (text.toList :: lines, allText)
      | .binary _ => ([], false)

def ofContent (directory : Path) (content : Content) : IgnoreRules × Bool :=
  let (lines, allText) :=
    match content with
    | .text text => (Text.lines text.toList, true)
    | .binary bytes =>
        let (lines, allText) := textLines (byteLines bytes)
        (lines.map Text.dropReturn, allText)
  let lines :=
    match lines with
    | first :: rest => first.dropWhile (· == '\uFEFF') :: rest
    | [] => []
  let (rules, allRead) := ofLines directory lines
  (rules, allText && allRead)

end IgnoreRules

end DocBlocks
