import DocBlocks.Text.Offset

/-!
Places in a text: a point has a line and a byte column, both counted from one, and a byte offset
counted from zero. A line table turns offsets into points.
-/
namespace DocBlocks

structure Point where
  line : Nat
  column : Nat
  offset : Nat
  deriving DecidableEq, Repr, Inhabited

def Point.text (p : Point) : String := toString p.line ++ ":" ++ toString p.column

structure Position where
  start : Point
  stop : Point
  deriving DecidableEq, Repr, Inhabited

namespace Position

def size (p : Position) : Nat := p.stop.offset - p.start.offset

def isEmpty (p : Position) : Bool := p.size == 0

end Position

structure LineTable where
  later : List Nat
  deriving DecidableEq, Repr

namespace LineTable

def startsFrom (offset : Nat) (text : List Char) : List Nat := go [] offset text
where
  go (found : List Nat) (offset : Nat) : List Char → List Nat
    | [] => found.reverse
    | c :: rest =>
        let next := offset + c.utf8Size
        go (if c = '\n' then next :: found else found) next rest

def ofText (text : List Char) : LineTable := ⟨startsFrom 0 text⟩

def point (table : LineTable) (offset : Nat) : Point :=
  let before := table.later.takeWhile (· ≤ offset)
  { line := before.length + 1
    column := offset - before.getLastD 0 + 1
    offset }

def position (table : LineTable) (start stop : Nat) : Position :=
  ⟨table.point start, table.point stop⟩

end LineTable

example : (LineTable.ofText "a\nbé\n".toList).point 5 = ⟨2, 4, 5⟩ := by decide
example : (LineTable.ofText "a\nbé\n".toList).point 9 = ⟨3, 4, 9⟩ := by decide

end DocBlocks
