import DocBlocks.Text.Blank

/-!
Paths as texts, read as components between slashes. Repeated slashes and `.` components do not count,
except for a `.` at the head of a relative path.
-/
namespace DocBlocks

structure Path where
  text : String
  deriving DecidableEq, Repr, Inhabited

namespace Path

inductive Component where
  | root
  | current
  | parent
  | name (text : String)
  deriving DecidableEq, Repr

def Component.text : Component → String
  | root => "/"
  | current => "."
  | parent => ".."
  | name text => text

def Component.rank : Component → Nat
  | root => 0
  | current => 1
  | parent => 2
  | name _ => 3

def Component.order (a b : Component) : Ordering :=
  match a, b with
  | .name s, .name t => compare s t
  | a, b => compare a.rank b.rank

def isAbsolute (p : Path) : Bool := p.text.toList.head? == some '/'

def Component.ofSegment? (isFirst : Bool) (segment : List Char) : Option Component :=
  match segment with
  | [] => none
  | ['.'] => if isFirst then some .current else none
  | ['.', '.'] => some .parent
  | segment => some (.name (String.ofList segment))

def ofSegments (isFirst : Bool) (start : Nat) : List (List Char) → List (Component × Nat)
  | [] => []
  | segment :: rest =>
      let stop := start + segment.length
      let later := ofSegments false (stop + 1) rest
      match Component.ofSegment? isFirst segment with
      | some component => (component, stop) :: later
      | none => later

def placed (p : Path) : List (Component × Nat) :=
  let segments := Text.pieces (· == '/') p.text.toList
  if p.isAbsolute then (.root, 1) :: ofSegments false 0 segments else ofSegments true 0 segments

def components (p : Path) : List Component := p.placed.map (·.1)

def fileName? (p : Path) : Option String :=
  match p.components.getLast? with
  | some (.name text) => some text
  | _ => none

def parent? (p : Path) : Option Path :=
  match p.placed.reverse with
  | [] => none
  | (.root, _) :: _ => none
  | [_] => some ⟨""⟩
  | _ :: (_, stop) :: _ => some ⟨String.ofList (p.text.toList.take stop)⟩

def extension? (p : Path) : Option String := do
  let name ← p.fileName?
  match (Text.pieces (· == '.') name.toList).reverse with
  | [] | [_] => none
  | [_, []] => none
  | last :: _ => some (String.ofList last)

def join (p q : Path) : Path :=
  if q.isAbsolute || p.text.isEmpty then q
  else if p.text.toList.getLast? == some '/' then ⟨p.text ++ q.text⟩
  else ⟨p.text ++ "/" ++ q.text⟩

def child (p : Path) (name : String) : Path := p.join ⟨name⟩

def ofComponents : List Component → Path
  | .root :: rest => ⟨"/" ++ "/".intercalate (rest.map Component.text)⟩
  | all => ⟨"/".intercalate (all.map Component.text)⟩

/-- Adds a component to normalized components, which are given last one first. A `..` takes back the
component before it; at the head of a path it stays. -/
def pushNormal (done : List Component) : Component → List Component
  | .current => done
  | .parent =>
      match done with
      | [] => [.parent]
      | .root :: rest => .parent :: .root :: rest
      | _ :: rest => rest
  | component => component :: done

def normalize (p : Path) : Path := ofComponents (p.components.foldl pushNormal []).reverse

def absolute (directory p : Path) : Path := (directory.join p).normalize

def order (p q : Path) : Ordering := go p.components q.components
where
  go : List Component → List Component → Ordering
    | [], [] => .eq
    | [], _ :: _ => .lt
    | _ :: _, [] => .gt
    | a :: as, b :: bs => (a.order b).then (go as bs)

def below? : List Component → List Component → Option (List Component)
  | [], rest => some rest
  | _ :: _, [] => none
  | d :: ds, c :: cs => if d = c then below? ds cs else none

def relativeText (p directory : Path) : String :=
  match below? directory.components p.components with
  | some rest => (ofComponents rest).text
  | none => p.text

example : (Path.mk "a/../../b").normalize = ⟨"../b"⟩ := by decide
example : (Path.mk "/..").normalize = ⟨"/.."⟩ := by decide
example : (Path.mk "a//b/./c/").parent? = some ⟨"a//b"⟩ := by decide

end Path

end DocBlocks
