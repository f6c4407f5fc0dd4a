import DocBlocks.Generator.Plugin
import DocBlocks.Proofs.Path

/-! Where a path leads in its text alone: up some levels, then down along names. Normalizing a path finds
the names, but of the levels that lead up it keeps only whether they are odd or even. -/
namespace DocBlocks.Path

/-- The names that components lead down along, last one first, and the number of `..` before which there
was no name left. -/
structure Trail where
  up : Nat
  names : List String
  deriving DecidableEq, Repr

namespace Trail

def start : Trail := ⟨0,[]⟩

def step : Trail → Component → Trail
  | t, .name text => ⟨t.up,text :: t.names⟩
  | ⟨up,_ :: rest⟩, .parent => ⟨up,rest⟩
  | ⟨up,[]⟩, .parent => ⟨up + 1,[]⟩
  | t, .root => t
  | t, .current => t

def write (head : List Component) (up : Nat) (names : List String) : List Component :=
  head ++ (List.replicate up .parent ++ names.reverse.map .name)

end Trail

def head (p : Path) : List Component := if p.isAbsolute then [.root] else []

def trail (p : Path) : Trail := p.components.foldl Trail.step .start

/-- The components of the place that a path leads to. A level up leads nowhere from the root. -/
def location (p : Path) : List Component :=
  Trail.write p.head (if p.isAbsolute then 0 else p.trail.up) p.trail.names

example : (Path.mk "../a/../../b").location = [.parent,.parent,.name "b"] := by decide
example : (Path.mk "/../a/./b/..").location = [.root,.name "a"] := by decide

def Component.IsInner : Component → Prop
  | .parent => True
  | .name text => IsName text
  | _ => False

variable {p : Path} {component : Component} {components : List Component}

theorem innerSegment (inner : component.IsInner) (isFirst : Bool) :
    Component.ofSegment? isFirst component.text.toList = some component := by
  cases component with
  | parent => rfl
  | name text => exact nameSegment inner isFirst
  | root | current => cases inner

theorem segmentInner {isFirst : Bool} {segment : List Char} (plain : '/' ∉ segment)
    (counts : Component.ofSegment? isFirst segment = some component) :
    component = .current ∨ component.IsInner := by
  unfold Component.ofSegment? at counts
  split at counts
  · cases counts
  · cases isFirst
    · cases counts
    · exact .inl (Option.some.inj counts).symm
  · cases counts
    exact .inr trivial
  · rename_i filled current parent
    cases counts
    have same {text : String} (equal : String.ofList segment = text) : segment = text.toList := by
      rw [← equal, String.toList_ofList]
    refine .inr ⟨fun none => filled (same none),fun dot => ?_,fun dots => parent (same dots),by simpa using plain⟩
    exact current (same dot)

theorem componentsParts (p : Path) : ∃ rest, p.components = p.head ++ rest ∧
    ∀ c ∈ rest, c = .current ∨ c.IsInner := by
  have inner (isFirst : Bool) (start : Nat) (segments : List (List Char))
      (plain : ∀ segment ∈ segments, '/' ∉ segment) :
      ∀ c ∈ (ofSegments isFirst start segments).map (·.1), c = .current ∨ c.IsInner := by
    induction segments generalizing isFirst start with
    | nil => nofun
    | cons segment rest ih =>
        obtain ⟨here,later⟩ := List.forall_mem_cons.mp plain
        have others := ih false (start + segment.length + 1) later
        intro c member
        rw [ofSegments] at member
        cases counts : Component.ofSegment? isFirst segment with
        | none =>
            rw [counts] at member
            exact others c member
        | some component =>
            rw [counts] at member
            rcases List.mem_cons.mp member with rfl | member
            · exact segmentInner here counts
            · exact others c member
  have plain : ∀ segment ∈ Text.pieces (· == '/') p.text.toList, '/' ∉ segment := by
    intro segment member slash
    exact absurd (Text.piecesHold member '/' slash) (by decide)
  unfold components placed head
  split
  · exact ⟨_,rfl,inner false 0 _ plain⟩
  · exact ⟨_,rfl,inner true 0 _ plain⟩

theorem pushedTrail {head : List Component} (top : head = [] ∨ head = [.root])
    {rest : List Component} (inner : ∀ c ∈ rest, c = .current ∨ c.IsInner) (t : Trail) :
    rest.foldl pushNormal (Trail.write head (t.up % 2) t.names).reverse =
      (Trail.write head ((rest.foldl Trail.step t).up % 2) (rest.foldl Trail.step t).names).reverse := by
  -- a level up that has nothing to take back cancels the one before it, hence the parity
  induction rest generalizing t with
  | nil => rfl
  | cons c rest ih =>
      obtain ⟨here,later⟩ := List.forall_mem_cons.mp inner
      have one : pushNormal (Trail.write head (t.up % 2) t.names).reverse c =
          (Trail.write head ((t.step c).up % 2) (t.step c).names).reverse := by
        obtain ⟨up,names⟩ := t
        rcases here with rfl | inner
        · rfl
        cases c with
        | root | current => cases inner
        | name text => simp [pushNormal, Trail.step, Trail.write]
        | parent =>
            cases names with
            | cons last names => simp [pushNormal, Trail.step, Trail.write]
            | nil =>
                rcases Nat.mod_two_eq_zero_or_one up with even | odd
                · rcases top with rfl | rfl <;>
                    simp [pushNormal, Trail.step, Trail.write, even, Nat.add_mod]
                · rcases top with rfl | rfl <;>
                    simp [pushNormal, Trail.step, Trail.write, odd, Nat.add_mod]
      rw [List.foldl_cons, List.foldl_cons, one, ih later]

theorem innerText (inner : component.IsInner) :
    component.text.toList ≠ [] ∧ ∀ c ∈ component.text.toList, (c == '/') = false := by
  cases component with
  | parent =>
      have dots : Component.parent.text.toList = ['.','.'] := by cbv
      rw [dots]
      exact ⟨nofun,List.forall_mem_cons.mpr ⟨rfl,List.forall_mem_singleton.mpr rfl⟩⟩
  | name text =>
      refine ⟨fun none => inner.1 (String.toList_eq_nil_iff.mp none),fun c member => ?_⟩
      exact beq_false_of_ne fun slash => inner.2.2.2 (slash ▸ member)
  | root | current => cases inner

theorem innerRead (inner : ∀ c ∈ components, c.IsInner) (isFirst : Bool) (start : Nat) :
    (ofSegments isFirst start (Text.pieces (· == '/')
      (Text.joined ['/'] (components.map (·.text.toList))))).map (·.1) = components := by
  cases components with
  | nil => rfl
  | cons first rest =>
      have plain : ∀ part ∈ (first :: rest).map (·.text.toList), ∀ d ∈ part, (d == '/') = false := by
        intro part member
        obtain ⟨c,inside,rfl⟩ := List.mem_map.mp member
        exact (innerText (inner c inside)).2
      rw [Text.piecesJoined rfl (by simp) plain]
      generalize first :: rest = all at inner
      induction all generalizing isFirst start with
      | nil => rfl
      | cons c all ih =>
          obtain ⟨here,later⟩ := List.forall_mem_cons.mp inner
          rw [List.map_cons, ofSegments, innerSegment here]
          exact congrArg (c :: ·) (ih false _ later)

theorem writtenRead {head : List Component} (top : head = [] ∨ head = [.root])
    (inner : ∀ c ∈ components, c.IsInner) :
    (ofComponents (head ++ components)).components = head ++ components := by
  -- a relative path begins with no slash: its first component has a text, in which there is none
  rcases top with rfl | rfl
  · have whole : (ofComponents ([] ++ components)).text.toList =
        Text.joined ['/'] (components.map (·.text.toList)) := by
      unfold ofComponents
      split
      · rename_i same
        have member : Component.root ∈ [] ++ components := same ▸ List.mem_cons_self
        exact (inner .root member).elim
      · rw [String.toList_intercalate, List.map_map]
        rfl
    have relative : (ofComponents ([] ++ components)).isAbsolute = false := by
      rw [isAbsolute, whole, beq_eq_false_iff_ne]
      cases components with
      | nil =>
          intro slash
          cases slash
      | cons first rest =>
          obtain ⟨filled,plain⟩ := innerText (inner first List.mem_cons_self)
          cases text : first.text.toList with
          | nil => exact absurd text filled
          | cons c more =>
              have other := plain c (text ▸ List.mem_cons_self)
              cases rest <;>
                simpa [Text.joined, List.intercalate_cons_cons, text] using other
    rw [Path.components, placed, relative, whole]
    exact innerRead inner true 0
  · have whole : (ofComponents ([.root] ++ components)).text.toList =
        '/' :: Text.joined ['/'] (components.map (·.text.toList)) := by
      change ("/" ++ "/".intercalate (components.map Component.text)).toList = _
      rw [String.toList_append, String.toList_intercalate, List.map_map]
      rfl
    have absolute : (ofComponents ([.root] ++ components)).isAbsolute = true := by
      rw [isAbsolute, whole]
      rfl
    rw [Path.components, placed, absolute, whole, Text.piecesCut rfl]
    exact congrArg (.root :: ·) (innerRead inner false 1)

theorem headTop (p : Path) : p.head = [] ∨ p.head = [.root] := by
  unfold head
  split
  · exact .inr rfl
  · exact .inl rfl

theorem trailBehind (p : Path) : ∃ rest : List Component, (∀ c ∈ rest, c = .current ∨ c.IsInner) ∧
    p.trail = rest.foldl Trail.step .start ∧
      p.components.foldl pushNormal [] = rest.foldl pushNormal p.head.reverse := by
  obtain ⟨rest,parts,inner⟩ := componentsParts p
  refine ⟨rest,inner,?_,?_⟩
  · rw [trail, parts, List.foldl_append]
    rcases headTop p with top | top <;> rw [top] <;> rfl
  · rw [parts, List.foldl_append]
    rcases headTop p with top | top <;> rw [top] <;> rfl

theorem trailNames (p : Path) : ∀ name ∈ p.trail.names, IsName name := by
  obtain ⟨rest,inner,same,folded⟩ := trailBehind p
  have each (t : Trail) (before : ∀ name ∈ t.names, IsName name) :
      ∀ name ∈ (rest.foldl Trail.step t).names, IsName name := by
    clear same folded
    induction rest generalizing t with
    | nil => exact before
    | cons c rest ih =>
        obtain ⟨here,later⟩ := List.forall_mem_cons.mp inner
        refine ih later (t.step c) ?_
        obtain ⟨up,names⟩ := t
        rcases here with rfl | inner
        · exact before
        cases c with
        | root | current => cases inner
        | name text => exact List.forall_mem_cons.mpr ⟨inner,before⟩
        | parent =>
            cases names with
            | nil => exact before
            | cons last names => exact (List.forall_mem_cons.mp before).2
  rw [same]
  exact each .start nofun

theorem trailRead (p : Path) (up : Nat) :
    (ofComponents (Trail.write p.head up p.trail.names)).components =
      Trail.write p.head up p.trail.names := by
  refine writtenRead (headTop p) fun c member => ?_
  rcases List.mem_append.mp member with level | name
  · rw [List.eq_of_mem_replicate level]
    trivial
  · obtain ⟨text,inside,rfl⟩ := List.mem_map.mp name
    exact trailNames p text (List.mem_reverse.mp inside)

theorem normalizedTrail (p : Path) :
    p.normalize = ofComponents (Trail.write p.head (p.trail.up % 2) p.trail.names) := by
  obtain ⟨rest,inner,same,folded⟩ := trailBehind p
  have pushed := pushedTrail (headTop p) inner .start
  rw [← same] at pushed
  rw [normalize, folded, show p.head.reverse = (Trail.write p.head (Trail.start.up % 2)
    Trail.start.names).reverse by simp [Trail.write, Trail.start], pushed, List.reverse_reverse]

theorem writeSame {head : List Component} {up up' : Nat} {names : List String} :
    Trail.write head up names = Trail.write head up' names ↔ up = up' := by
  refine ⟨fun same => ?_,fun same => same ▸ rfl⟩
  have lengths := congrArg List.length same
  simpa [Trail.write] using lengths

structure Exact (p : Path) : Prop where
  written : p.normalize = ofComponents p.location
  read : p.normalize.components = p.location

/-- Holds of the paths that lead up at most one level, or from the root by an even number of levels. -/
def Settled (p : Path) : Prop := if p.isAbsolute then p.trail.up % 2 = 0 else p.trail.up ≤ 1

instance (p : Path) : Decidable p.Settled := inferInstanceAs (Decidable (ite _ _ _))

theorem exactIff (p : Path) : p.Exact ↔ p.Settled := by
  have read := trailRead p (p.trail.up % 2)
  rw [← normalizedTrail] at read
  have same : p.normalize.components = p.location ↔ p.Settled := by
    rw [read, location, writeSame, Settled]
    split
    · exact Iff.rfl
    · omega
  refine ⟨fun exact => same.mp exact.read,fun settled => ⟨?_,same.mpr settled⟩⟩
  rw [← same.mpr settled, read]
  exact normalizedTrail p

theorem locationAbove {rest : List Component} (inside : p.location <+: .root :: .parent :: rest) :
    p.location <+: [.root] := by
  unfold location head at inside ⊢
  cases fromRoot : p.isAbsolute with
  | true =>
      cases names : p.trail.names.reverse with
      | nil => simp [Trail.write, names]
      | cons name rest => simp [Trail.write, names, fromRoot] at inside
  | false =>
      cases up : p.trail.up with
      | succ up => simp [Trail.write, up, fromRoot, List.replicate_succ] at inside
      | zero =>
          cases names : p.trail.names.reverse with
          | nil => simp [Trail.write, names]
          | cons name rest => simp [Trail.write, names, up, fromRoot] at inside

theorem outsideKept {directory joined : Path}
    (kept : joined.isAbsolute = true ∨ joined.Settled)
    (outside : ¬directory.location <+: joined.location) :
    ¬directory.location <+: joined.normalize.components := by
  by_cases settled : joined.Settled
  · rw [((exactIff joined).mpr settled).read]
    exact outside
  have absolute := kept.resolve_right settled
  have odd : joined.trail.up % 2 = 1 := by
    have off : joined.trail.up % 2 ≠ 0 := by simpa [Settled, absolute] using settled
    omega
  have top : joined.head = [.root] := if_pos absolute
  have place : joined.location = .root :: joined.trail.names.reverse.map .name := by
    simp [location, top, absolute, Trail.write]
  have above : joined.normalize.components =
      .root :: .parent :: joined.trail.names.reverse.map .name := by
    rw [normalizedTrail, trailRead, top, odd]
    simp [Trail.write]
  rw [place] at outside
  rw [above]
  exact fun inside => outside ((locationAbove inside).trans (List.prefix_append [Component.root] _))

/- Normalizing finds the place that a path leads to just when it leads up at most one level, or from the
root by an even number of them. From an absolute directory no path comes to lead into it. -/
theorem locatedInText (p : Path) :
    p.normalize.components = Trail.write p.head (p.trail.up % 2) p.trail.names ∧
      (p.Exact ↔ p.Settled) ∧
      ∀ (c : Context) (relative : String),
        let directory := c.document.directory
        let joined := directory.join ⟨relative⟩
        joined.isAbsolute = true ∨ joined.Settled → ¬directory.location <+: joined.location →
          ¬directory.location <+: (c.resolve relative).components := by
  refine ⟨?_,exactIff p,fun c relative => outsideKept⟩
  rw [normalizedTrail]
  exact trailRead p _

def readmeIn (directory : String) : Context where
  files := .empty
  workspace := ⟨⟨"/"⟩,{},[],[]⟩
  document := ⟨⟨directory ++ "readme.md"⟩⟩
  block := ⟨"test.resolve","",default,none,default⟩

theorem levelsLocated : (Path.mk "../a/../b").Settled ∧ (Path.mk "../a/../b").Exact ∧
    (Path.mk "/docs/../../x").isAbsolute = true ∧ ((readmeIn "/docs/").resolve "../../x").text = "/../x" ∧
    ¬(Path.mk "/docs").location <+: ((readmeIn "/docs/").resolve "../../x").components := by
  have settled : (Path.mk "../a/../b").Settled := by decide
  have dir : (readmeIn "/docs/").document.directory = ⟨"/docs"⟩ := by decide
  have located := locatedInText ⟨"../a/../b"⟩
  refine ⟨settled,located.2.1.mpr settled,by decide,by decide,?_⟩
  rw [← dir]
  exact located.2.2 (readmeIn "/docs/") "../../x" (.inl (by decide)) (by decide)

/- Of two levels up nothing is left, and a path that leaves its directory by them is taken to be in it. -/
theorem levelsLost : (¬∀ p : Path, p.Exact) ∧
    ¬∀ (c : Context) (relative : String),
      ¬c.document.directory.location <+: (c.document.directory.join ⟨relative⟩).location →
        ¬c.document.directory.location <+: (c.resolve relative).components := by
  refine ⟨fun always => ?_,fun always => ?_⟩
  · have lost : ¬(Path.mk "../../b").Settled := by decide
    exact lost ((exactIff _).mp (always _))
  · exact always (readmeIn "docs/") "../../../docs/b" (by decide) (by decide)

end DocBlocks.Path
