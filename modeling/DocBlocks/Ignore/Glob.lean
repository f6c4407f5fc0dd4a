/-!
Glob patterns for paths. A pattern is read as a list of parts; each part matches some bytes at the head
of a path and leaves the rest. Matching goes by the bytes of the UTF-8 form, so a `?` stands for one
byte, and a slash is matched only by a slash, a class or the parts that stand for directories.
-/
namespace DocBlocks

inductive GlobPart where
  | literal (c : Char)
  | any
  | star
  | leadingDirectories
  | allBelow
  | directoriesBetween
  | oneOf (negated : Bool) (ranges : List (Char × Char))
  | alternatives (branches : List (List GlobPart))

namespace GlobPart

def slash : UInt8 := 0x2F

def charBytes (c : Char) : List UInt8 := String.utf8EncodeChar c

def afterBytes? : List UInt8 → List UInt8 → Option (List UInt8)
  | [], path => some path
  | _ :: _, [] => none
  | b :: bs, p :: rest => if b = p then afterBytes? bs rest else none

def afterName : List UInt8 → List (List UInt8)
  | [] => [[]]
  | b :: rest => (b :: rest) :: if b = slash then [] else afterName rest

def afterSlashes : List UInt8 → List (List UInt8)
  | [] => []
  | b :: rest => if b = slash then rest :: afterSlashes rest else afterSlashes rest

def tails : List UInt8 → List (List UInt8)
  | [] => [[]]
  | b :: rest => (b :: rest) :: tails rest

/-- Whether a byte belongs to a range of characters. Of two different ends the last byte of the lower
and the first byte of the upper one bound a range of bytes; the other bytes stand for themselves. -/
def rangeHas (range : Char × Char) (b : UInt8) : Bool :=
  let low := charBytes range.1
  let high := charBytes range.2
  low.contains b || high.contains b ||
    (range.1 != range.2 && decide (low.getLastD 0 ≤ b) && decide (b ≤ high.headD 0))

mutual

def isVoid : GlobPart → Bool
  | alternatives branches => areVoid branches
  | _ => false

def isVoidBranch : List GlobPart → Bool
  | [] => true
  | part :: rest => part.isVoid && isVoidBranch rest

def areVoid : List (List GlobPart) → Bool
  | [] => true
  | branch :: rest => isVoidBranch branch && areVoid rest

end

mutual

def rests : GlobPart → List UInt8 → List (List UInt8)
  | literal c, path => (afterBytes? (charBytes c) path).toList
  | any, path =>
      match path with
      | b :: rest => if b = slash then [] else [rest]
      | [] => []
  | star, path => afterName path
  | leadingDirectories, path => path :: afterSlashes path
  | allBelow, path =>
      match path with
      | b :: rest => if b = slash then tails rest else []
      | [] => []
  | directoriesBetween, path =>
      match path with
      | b :: rest => if b = slash then rest :: afterSlashes rest else []
      | [] => []
  | oneOf negated ranges, path =>
      match path with
      | b :: rest => if (ranges.any fun range => rangeHas range b) != negated then [rest] else []
      | [] => []
  | alternatives branches, path =>
      if areVoid branches then [path] else (branchRests branches path).eraseDups

def sequenceRests : List GlobPart → List UInt8 → List (List UInt8)
  | [], path => [path]
  | part :: rest, path => ((part.rests path).flatMap (sequenceRests rest)).eraseDups

def branchRests : List (List GlobPart) → List UInt8 → List (List UInt8)
  | [], _ => []
  | branch :: rest, path =>
      (if isVoidBranch branch then [] else sequenceRests branch path) ++ branchRests rest path

end

end GlobPart

structure Glob where
  parts : List GlobPart

namespace Glob

def isMatch (g : Glob) (path : List UInt8) : Bool :=
  match g.parts with
  | [.leadingDirectories] => true
  | parts => (GlobPart.sequenceRests parts path).contains []

structure ClassReading where
  ranges : List (Char × Char)
  isFirst : Bool
  inRange : Bool

inductive ClassResult where
  | closed (ranges : List (Char × Char)) (rest : List Char)
  | unclosed
  | reversed

namespace ClassReading

def add (r : ClassReading) (c : Char) : Option ClassReading :=
  match r.inRange, r.ranges with
  | true, (low, _) :: others => if c < low then none else some ⟨(low, c) :: others, false, false⟩
  | _, ranges => some ⟨(c, c) :: ranges, false, false⟩

def finish (r : ClassReading) : List (Char × Char) :=
  (if r.inRange then ('-', '-') :: r.ranges else r.ranges).reverse

def read (r : ClassReading) : List Char → ClassResult
  | [] => .unclosed
  | c :: rest =>
      if c = ']' ∧ ¬ r.isFirst then .closed r.finish rest
      else if c = '-' ∧ ¬ r.isFirst ∧ ¬ r.inRange then read { r with inRange := true } rest
      else
        match r.add c with
        | some r => read r rest
        | none => .reversed

end ClassReading

structure Group where
  outer : List GlobPart
  branches : List (List GlobPart)

structure Partial where
  current : List GlobPart
  groups : List Group
  hasOpenBracket : Bool

namespace Partial

def push (p : Partial) (part : GlobPart) : Partial := { p with current := part :: p.current }

def openGroup (p : Partial) : Partial :=
  { p with current := [], groups := ⟨p.current, []⟩ :: p.groups }

def nextBranch (p : Partial) : Partial :=
  match p.groups with
  | [] => p.push (.literal ',')
  | group :: outer =>
      { p with
        current := []
        groups := { group with branches := p.current.reverse :: group.branches } :: outer }

def closeGroup (p : Partial) : Option Partial :=
  match p.groups with
  | [] => none
  | group :: outer =>
      let branches := (p.current.reverse :: group.branches).reverse
      some { p with current := .alternatives branches :: group.outer, groups := outer }

/-- What two stars stand for behind `previous`, and what follows them. They stand for directories only
between slashes or at an end. -/
def doubleStar (p : Partial) (previous : Option Char) (rest : List Char) : Partial × List Char :=
  let plain := ((p.push .star).push .star, rest)
  let inGroup := !p.groups.isEmpty
  match p.current with
  | [] =>
      match rest with
      | [] => (p.push .leadingDirectories, [])
      | '/' :: rest => (p.push .leadingDirectories, rest)
      | _ => plain
  | last :: before =>
      let replaced (part : GlobPart) : Partial :=
        match last with
        | .leadingDirectories | .allBelow => p
        | _ => { p with current := part :: before }
      if previous = some '/' ∨ (inGroup ∧ (previous = some ',' ∨ previous = some '{')) then
        match rest with
        | [] => (replaced .allBelow, [])
        | '/' :: rest => (replaced .directoriesBetween, rest)
        | c :: _ => if inGroup ∧ (c = ',' ∨ c = '}') then (replaced .allBelow, rest) else plain
      else plain

end Partial

def readParts : Nat → Partial → Option Char → List Char → Option Partial
  | _, p, _, [] => some p
  | 0, _, _, _ => none
  | fuel + 1, p, previous, c :: rest =>
      match c, rest with
      | '?', rest => readParts fuel (p.push .any) c rest
      | '*', '*' :: rest =>
          let (next, left) := p.doubleStar previous rest
          let last := if left.length < rest.length then '/' else '*'
          readParts fuel next last left
      | '*', rest => readParts fuel (p.push .star) c rest
      | '{', rest => readParts fuel p.openGroup c rest
      | '}', rest => do readParts fuel (← p.closeGroup) c rest
      | ',', rest => readParts fuel p.nextBranch c rest
      | '\\', [] => none
      | '\\', escaped :: rest => readParts fuel (p.push (.literal escaped)) escaped rest
      | '[', rest =>
          if p.hasOpenBracket then readParts fuel (p.push (.literal c)) c rest
          else
            let (negated, inside) :=
              match rest with
              | '!' :: inside | '^' :: inside => (true, inside)
              | inside => (false, inside)
            match (ClassReading.mk [] true false).read inside with
            | .closed ranges rest => readParts fuel (p.push (.oneOf negated ranges)) (some ']') rest
            | .unclosed =>
                readParts fuel ({ p with hasOpenBracket := true }.push (.literal c)) c rest
            | .reversed => none
      | c, rest => readParts fuel (p.push (.literal c)) c rest

def parse? (pattern : List Char) : Option Glob := do
  let p ← readParts pattern.length ⟨[], [], false⟩ none pattern
  if p.groups.isEmpty then some ⟨p.current.reverse⟩ else none

end Glob

end DocBlocks
