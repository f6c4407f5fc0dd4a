/-!
Edit scripts that turn one list of lines into another. Runs of added lines are moved down as far as
they can go, and between two runs of kept lines what is removed comes before what is added.
-/
namespace DocBlocks.Diff

variable {α : Type}

inductive Edit (α : Type) where
  | keep (lines : List α)
  | remove (lines : List α)
  | add (lines : List α)
  deriving DecidableEq, Repr

namespace Edit

def source : List (Edit α) → List α
  | [] => []
  | keep lines :: rest | remove lines :: rest => lines ++ source rest
  | add _ :: rest => source rest

def target : List (Edit α) → List α
  | [] => []
  | keep lines :: rest | add lines :: rest => lines ++ target rest
  | remove _ :: rest => target rest

def weight (script : List (Edit α)) : Nat :=
  script.length + (source script).length + (target script).length

end Edit

def commonHead [DecidableEq α] : List α → List α → Nat
  | x :: xs, y :: ys => if x = y then commonHead xs ys + 1 else 0
  | _, _ => 0

def commonTail [DecidableEq α] (xs ys : List α) : Nat := commonHead xs.reverse ys.reverse

structure Focus (α : Type) where
  before : List (Edit α)
  edit : Edit α
  after : List (Edit α)

namespace Focus

def keepFirst (lines : List α) : List (Edit α) → List (Edit α)
  | .keep more :: rest => .keep (lines ++ more) :: rest
  | rest => .keep lines :: rest

def keepLast (lines : List α) : List (Edit α) → List (Edit α)
  | .keep more :: rest => .keep (more ++ lines) :: rest
  | rest => .keep lines :: rest

/-- Moves an edit up as far as it can go. Added lines pass kept ones when they end alike; edits that
remove and add pass each other, and those of one kind are joined. -/
def up [DecidableEq α] : Nat → Focus α → Focus α
  | 0, f => f
  | fuel + 1, f =>
      match f.before, f.edit with
      | .keep kept :: before, .add added =>
          let n := commonTail kept added
          let moved := kept.drop (kept.length - n)
          let left := kept.take (kept.length - n)
          if n = 0 then if kept.isEmpty then up fuel ⟨before, f.edit, f.after⟩ else f
          else
            up fuel
              ⟨if left.isEmpty then before else .keep left :: before,
                .add (moved ++ added.take (added.length - n)), keepFirst moved f.after⟩
      | .keep [] :: before, .remove _ => up fuel ⟨before, f.edit, f.after⟩
      | .remove lines :: before, .add _ => up fuel ⟨before, f.edit, .remove lines :: f.after⟩
      | .add lines :: before, .remove _ => up fuel ⟨before, f.edit, .add lines :: f.after⟩
      | .add lines :: before, .add added => up fuel ⟨before, .add (lines ++ added), f.after⟩
      | .remove lines :: before, .remove removed =>
          up fuel ⟨before, .remove (lines ++ removed), f.after⟩
      | _, _ => f

def down [DecidableEq α] : Nat → Focus α → Focus α
  | 0, f => f
  | fuel + 1, f =>
      match f.edit, f.after with
      | .add added, .keep kept :: after =>
          let n := commonHead kept added
          let moved := kept.take n
          let left := kept.drop n
          if n = 0 then if kept.isEmpty then down fuel ⟨f.before, f.edit, after⟩ else f
          else
            down fuel
              ⟨keepLast moved f.before, .add (added.drop n ++ moved),
                if left.isEmpty then after else .keep left :: after⟩
      | .remove _, .keep [] :: after => down fuel ⟨f.before, f.edit, after⟩
      | .add _, .remove lines :: after => down fuel ⟨.remove lines :: f.before, f.edit, after⟩
      | .remove _, .add lines :: after => down fuel ⟨.add lines :: f.before, f.edit, after⟩
      | .add added, .add lines :: after => down fuel ⟨f.before, .add (added ++ lines), after⟩
      | .remove removed, .remove lines :: after =>
          down fuel ⟨f.before, .remove (removed ++ lines), after⟩
      | _, _ => f

end Focus

def settle [DecidableEq α] (moves : Edit α → Bool) (weight : Nat) :
    Nat → List (Edit α) → List (Edit α) → List (Edit α)
  | _, before, [] => before.reverse
  | 0, before, after => before.reverse ++ after
  | fuel + 1, before, edit :: after =>
      if moves edit then
        let f := Focus.down weight (Focus.up weight ⟨before, edit, after⟩)
        settle moves weight fuel (f.edit :: f.before) f.after
      else settle moves weight fuel (edit :: before) after

def isRemoval : Edit α → Bool
  | .remove _ => true
  | _ => false

def isAddition : Edit α → Bool
  | .add _ => true
  | _ => false

def compact [DecidableEq α] (script : List (Edit α)) : List (Edit α) :=
  let weight := Edit.weight script
  let fuel := weight * weight + 1
  settle isAddition weight fuel [] (settle isRemoval weight fuel [] script)

inductive Mark where
  | kept | removed | added
  deriving DecidableEq, Repr

def marked : List α → List α → List (Edit α) → List (Mark × α)
  | removed, added, [] => removed.map (.removed, ·) ++ added.map (.added, ·)
  | removed, added, .keep lines :: rest =>
      removed.map (.removed, ·) ++ added.map (.added, ·) ++ lines.map (.kept, ·) ++
        marked [] [] rest
  | removed, added, .remove lines :: rest => marked (removed ++ lines) added rest
  | removed, added, .add lines :: rest => marked removed (added ++ lines) rest

end DocBlocks.Diff
