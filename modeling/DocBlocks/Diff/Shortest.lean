import DocBlocks.Diff.Script

/-!
A shortest edit script between two lists of lines. The search goes from both ends at once; where the
two meet, the lists are cut and both parts are treated alike.

In the grid of the two lists a point `(x, y)` stands behind `x` lines of the first and `y` of the second
list, on the diagonal `x - y`. After `d` edits from one end the farthest point is known on each of the
diagonals `d, d - 2, ..., -d`.
-/
namespace DocBlocks.Diff

variable {α : Type}

structure Frontier where
  depth : Nat
  reach : Array Nat

namespace Frontier

def get (f : Frontier) (diagonal : Int) : Nat :=
  f.reach.getD (((f.depth : Int) - diagonal) / 2).toNat 0

def diagonals (depth : Nat) : List Int :=
  (List.range (depth + 1)).map fun (i : Nat) => (depth : Int) - 2 * (i : Int)

def step (f : Frontier) (depth : Nat) (diagonal : Int) : Nat :=
  if depth = 0 then 0
  -- down from the diagonal above, or to the right from the one below, whichever is farther
  else if diagonal = -depth then f.get (diagonal + 1)
  else if diagonal ≠ depth ∧ f.get (diagonal - 1) < f.get (diagonal + 1) then f.get (diagonal + 1)
  else f.get (diagonal - 1) + 1

end Frontier

structure Grid (α : Type) where
  old : List α
  new : List α

namespace Grid

def turned (g : Grid α) : Grid α := ⟨g.old.reverse, g.new.reverse⟩

def width (g : Grid α) : Nat := g.old.length

def height (g : Grid α) : Nat := g.new.length

def slide [DecidableEq α] (g : Grid α) (x y : Nat) : Nat := commonHead (g.old.drop x) (g.new.drop y)

/-- The farthest points with one more edit, diagonal by diagonal. The search ends at the first
diagonal on which `meets` holds of the farthest `x`; then the answer is the point where the edit led and
the one that the equal lines behind it lead to. -/
def advance [DecidableEq α] (g : Grid α) (before : Frontier) (depth : Nat)
    (meets : Int → Nat → Bool) :
    List Int → Array Nat → ((Nat × Nat) × (Nat × Nat)) ⊕ Frontier
  | [], reach => .inr ⟨depth, reach⟩
  | diagonal :: rest, reach =>
      let x := before.step depth diagonal
      let y := ((x : Int) - diagonal).toNat
      let n := g.slide x y
      if meets diagonal (x + n) then .inl ((x, y), (x + n, y + n))
      else advance g before depth meets rest (reach.push (x + n))

def meeting? [DecidableEq α] (g : Grid α) : Nat → Nat → Frontier → Frontier → Option (Nat × Nat)
  | 0, _, _, _ => none
  | fuel + 1, depth, forward, backward =>
      let delta : Int := (g.width : Int) - (g.height : Int)
      let isOdd := delta % 2 != 0
      let near (bound : Int) (diagonal : Int) : Bool :=
        decide (((diagonal - delta).natAbs : Int) ≤ bound)
      let meetsBackward (diagonal : Int) (x : Nat) : Bool :=
        isOdd && near ((depth : Int) - 1) diagonal &&
          decide (g.width ≤ x + backward.get (-(diagonal - delta)))
      match g.advance forward depth meetsBackward (Frontier.diagonals depth) #[] with
      | .inl (start, _) => some start
      | .inr forward =>
          let meetsForward (diagonal : Int) (x : Nat) : Bool :=
            !isOdd && near depth diagonal &&
              decide (g.width ≤ x + forward.get (-(diagonal - delta)))
          match g.turned.advance backward depth meetsForward (Frontier.diagonals depth) #[] with
          | .inl (_, (x, y)) => some (g.width - x, g.height - y)
          | .inr backward => meeting? g fuel (depth + 1) forward backward

end Grid

def editsWith [DecidableEq α] : Nat → List α → List α → List (Edit α)
  | fuel, old, new =>
      let head := commonHead old new
      let (kept, old, new) := (old.take head, old.drop head, new.drop head)
      let tail := commonTail old new
      let (old, last, new) :=
        (old.take (old.length - tail), old.drop (old.length - tail), new.take (new.length - tail))
      let between : List (Edit α) :=
        match old, new, fuel with
        | [], [], _ => []
        | old, [], _ => [.remove old]
        | [], new, _ => [.add new]
        | old, new, 0 => [.remove old, .add new]
        | old, new, fuel + 1 =>
            let half := (old.length + new.length + 1) / 2 + 1
            match Grid.meeting? ⟨old, new⟩ half 0 ⟨0, #[]⟩ ⟨0, #[]⟩ with
            | some (x, y) =>
                editsWith fuel (old.take x) (new.take y) ++ editsWith fuel (old.drop x) (new.drop y)
            | none => [.remove old, .add new]
      (if kept.isEmpty then [] else [.keep kept]) ++ between ++
        (if last.isEmpty then [] else [.keep last])

def edits [DecidableEq α] (old new : List α) : List (Edit α) :=
  compact (editsWith (old.length + new.length) old new)

end DocBlocks.Diff
