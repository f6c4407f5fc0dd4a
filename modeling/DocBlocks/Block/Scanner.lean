import DocBlocks.Block.Basic
import DocBlocks.Block.Tag

/-!
Finding the blocks of a text from left to right. Blocks do not overlap: the search goes on after a
block's closing tag, so tags inside a body are not looked at.
-/
namespace DocBlocks

structure Cursor where
  offset : Nat
  rest : List Char
  deriving DecidableEq, Repr

namespace Cursor

structure OpeningMatch where
  command : List Char
  arguments : List Char
  start : Nat
  next : Cursor
  deriving DecidableEq, Repr

/-- Looks for the next opening tag. Without one the cursor stands after the last delimiter that was
tried. -/
def nextOpening (g : CommentGrammar) (offset : Nat) (text : List Char) :
    Cursor × Option OpeningMatch :=
  match _h : Delimiter.find? g.openers text with
  | none => (⟨offset, text⟩, none)
  | some found =>
      let start := offset + Text.size found.before
      let inside := start + found.delimiter.size
      match Tag.opening? g found.rest with
      | some tag =>
          let next : Cursor := ⟨inside + tag.size, tag.rest⟩
          (next, some ⟨tag.command, tag.arguments, start, next⟩)
      | none => nextOpening g inside found.rest
termination_by text.length
decreasing_by exact Delimiter.length_rest_of_find? _h

def closing? (g : CommentGrammar) (command : List Char) (offset : Nat) (text : List Char) :
    Option (Nat × Cursor) :=
  match _h : Delimiter.find? g.openers text with
  | none => none
  | some found =>
      let start := offset + Text.size found.before
      let inside := start + found.delimiter.size
      match Tag.closing? g command found.rest with
      | some (size, rest) => some (start, ⟨inside + size, rest⟩)
      | none => closing? g command inside found.rest
termination_by text.length
decreasing_by exact Delimiter.length_rest_of_find? _h

def atEnd (c : Cursor) : Cursor := ⟨c.offset + Text.size c.rest, []⟩

theorem length_rest_of_nextOpening {g : CommentGrammar} {offset : Nat} {text : List Char}
    {after : Cursor} {found : OpeningMatch}
    (h : nextOpening g offset text = (after, some found)) :
    found.next.rest.length < text.length := by
  fun_induction nextOpening g offset text with
  | case1 => simp at h
  | case2 offset text f hf start inside tag ht next =>
      obtain ⟨_, h⟩ := Prod.mk.inj h
      rw [← Option.some.inj h]
      exact Nat.lt_trans (Tag.length_rest_of_opening? ht) (Delimiter.length_rest_of_find? hf)
  | case3 offset text f hf start inside ht ih =>
      exact Nat.lt_trans (ih h) (Delimiter.length_rest_of_find? hf)

theorem length_rest_of_closing? {g : CommentGrammar} {command : List Char} {offset start : Nat}
    {text : List Char} {after : Cursor}
    (h : closing? g command offset text = some (start, after)) :
    after.rest.length ≤ text.length := by
  fun_induction closing? g command offset text with
  | case1 => cases h
  | case2 offset text f hf _ _ size rest hc =>
      obtain ⟨_, h⟩ := Prod.mk.inj (Option.some.inj h)
      rw [← h]
      have h₁ := Tag.length_rest_of_closing? hc
      have h₂ := Delimiter.length_rest_of_find? hf
      dsimp only
      omega
  | case3 offset text f hf _ _ hc ih =>
      have := Delimiter.length_rest_of_find? hf
      have := ih h
      omega

end Cursor

namespace Opening

def ofMatch (lines : LineTable) (found : Cursor.OpeningMatch) : Opening where
  command := String.ofList found.command
  arguments := String.ofList found.arguments
  position := lines.position found.start found.next.offset

end Opening

namespace Block

def ofOpening (g : CommentGrammar) (lines : LineTable) (found : Cursor.OpeningMatch) :
    Block × Cursor :=
  let opening := Opening.ofMatch lines found
  let closing := Cursor.closing? g found.command found.next.offset found.next.rest
  let next :=
    match closing with
    | some (_, after) => after
    | none => if isReservedCommand opening.command then found.next else found.next.atEnd
  ({ command := opening.command
     arguments := opening.arguments
     opening := opening.position
     closing := closing.map fun (start, after) => lines.position start after.offset
     span := lines.position found.start next.offset },
   next)

theorem length_rest_of_ofOpening (g : CommentGrammar) (lines : LineTable)
    (found : Cursor.OpeningMatch) :
    (ofOpening g lines found).2.rest.length ≤ found.next.rest.length := by
  simp only [ofOpening]
  split
  · rename_i h
    exact Cursor.length_rest_of_closing? h
  · split <;> simp [Cursor.atEnd]

def fromCursor (g : CommentGrammar) (lines : LineTable) (offset : Nat) (text : List Char) :
    List Block :=
  match _h : Cursor.nextOpening g offset text with
  | (_, none) => []
  | (_, some found) =>
      (ofOpening g lines found).1 ::
        fromCursor g lines (ofOpening g lines found).2.offset (ofOpening g lines found).2.rest
termination_by text.length
decreasing_by
  exact Nat.lt_of_le_of_lt (length_rest_of_ofOpening g lines found)
    (Cursor.length_rest_of_nextOpening _h)

end Block

/-- A scanner over a text. It finds nothing when it was set to an offset inside a character. -/
structure Scanner where
  grammar : CommentGrammar
  lines : LineTable
  offset : Nat
  rest : Option (List Char)
  deriving DecidableEq, Repr

namespace Scanner

def startingAt (g : CommentGrammar) (text : List Char) (offset : Nat) : Scanner :=
  let offset := min offset (Text.size text)
  ⟨g, .ofText text, offset, Text.dropBytes? offset text⟩

def ofText (g : CommentGrammar) (text : List Char) : Scanner := startingAt g text 0

def moveTo (s : Scanner) (c : Cursor) : Scanner := { s with offset := c.offset, rest := some c.rest }

def nextOpening (s : Scanner) : Option Opening × Scanner :=
  match s.rest with
  | none => (none, s)
  | some text =>
      match Cursor.nextOpening s.grammar s.offset text with
      | (cursor, none) => (none, s.moveTo cursor)
      | (cursor, some found) => (some (Opening.ofMatch s.lines found), s.moveTo cursor)

def nextBlock (s : Scanner) : Option Block × Scanner :=
  match s.rest with
  | none => (none, s)
  | some text =>
      match Cursor.nextOpening s.grammar s.offset text with
      | (cursor, none) => (none, s.moveTo cursor)
      | (_, some found) =>
          let (block, next) := Block.ofOpening s.grammar s.lines found
          (some block, s.moveTo next)

def blocks (s : Scanner) : List Block :=
  match s.rest with
  | none => []
  | some text => Block.fromCursor s.grammar s.lines s.offset text

end Scanner

def Block.findAll (g : CommentGrammar) (text : List Char) : List Block :=
  (Scanner.ofText g text).blocks

end DocBlocks
