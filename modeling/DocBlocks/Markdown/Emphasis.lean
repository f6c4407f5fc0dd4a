/-!
Emphasis and strikethrough: runs of a mark that open and close around a part of a text. A run that closes
something pairs with the nearest run before it that may open it; what is not paired is text.
-/
namespace DocBlocks.Markdown

structure MarkRun where
  mark : Char
  size : Nat
  opens : Bool
  closes : Bool
  deriving DecidableEq, Repr

inductive Piece where
  | chars (cs : List Char)
  | run (r : MarkRun)
  deriving DecidableEq, Repr

def Piece.plain : Piece → List Char
  | .chars cs => cs
  | .run r => List.replicate r.size r.mark

def Piece.inert (p : Piece) : Piece := .chars p.plain

namespace MarkRun

/-- Whether a run may be closed by another. Runs that may do both pair only if the sizes do not add up to a
multiple of three, unless the closing one is such a multiple itself. A strikethrough has equal marks, of at most
two, on both sides. -/
def pairsWith (opener closer : MarkRun) : Bool :=
  opener.opens && opener.mark == closer.mark &&
    !((opener.closes || closer.opens) && closer.size % 3 != 0 && (opener.size + closer.size) % 3 == 0) &&
    (closer.mark != '~' || (closer.size == opener.size && closer.size ≤ 2))

def used (opener closer : MarkRun) : Nat := if opener.size > 1 && closer.size > 1 then 2 else 1

def shorten (r : MarkRun) (count : Nat) : List Piece :=
  if r.size ≤ count then [] else [.run { r with size := r.size - count }]

def opener? (closer : MarkRun) : List Piece → Option (List Piece × MarkRun × List Piece)
  | [] => none
  | p :: below =>
      match p with
      | .run r =>
          if r.pairsWith closer then some ([], r, below)
          else (opener? closer below).map fun (inside, found) => (.run r :: inside, found)
      | .chars cs => (opener? closer below).map fun (inside, found) => (.chars cs :: inside, found)

def close (r : MarkRun) (fuel : Nat) (before : List Piece) : List Piece :=
  match fuel with
  | 0 => .run r :: before
  | fuel + 1 =>
      match r.opener? before with
      | none => .run r :: before
      | some (inside, opener, below) =>
          let count := used opener r
          let before := inside.map Piece.inert ++ opener.shorten count ++ below
          if r.size ≤ count then before else close { r with size := r.size - count } fuel before

end MarkRun

def pairRuns (pieces : List Piece) : List Piece :=
  pieces.foldl
    (fun before p =>
      match p with
      | .run r => if r.closes then r.close r.size before else .run r :: before
      | .chars cs => .chars cs :: before)
    []

def plainText (pieces : List Piece) : List Char := (pairRuns pieces).reverse.flatMap Piece.plain

example :
    plainText [.run ⟨'*', 2, true, false⟩, .chars ['a'], .run ⟨'*', 1, false, true⟩] = ['*', 'a'] := by
  decide

end DocBlocks.Markdown
