import DocBlocks.Text.Blank
import Mathlib.Data.List.Basic

/-! The pieces of a text between separators: they hold none, and joined by them they are the text. -/
namespace DocBlocks.Text

variable {p : Char → Bool} {c d : Char} {text : List Char}

theorem piecesGo (p : Char → Bool) (seen text : List Char) : ∃ first rest,
    pieces p text = first :: rest ∧ pieces.go p seen text = (seen.reverse ++ first) :: rest := by
  have both (seen' : List Char) : ∃ first rest,
      pieces.go p seen' text = (seen'.reverse ++ first) :: rest ∧
        pieces.go p seen text = (seen.reverse ++ first) :: rest := by
    induction text generalizing seen seen' with
    | nil => exact ⟨[],[],by simp [pieces.go],by simp [pieces.go]⟩
    | cons d text ih =>
        simp only [pieces.go]
        split
        · exact ⟨[],pieces.go p [] text,by simp,by simp⟩
        · obtain ⟨first,rest,one,other⟩ := ih (d :: seen) (d :: seen')
          exact ⟨d :: first,rest,by simp [one],by simp [other]⟩
  exact both []

theorem piecesCut (cut : p c = true) (text : List Char) :
    pieces p (c :: text) = [] :: pieces p text := by
  simp [pieces, pieces.go, cut]

theorem piecesPlain (plain : p d = false) {first : List Char} {rest : List (List Char)}
    (found : pieces p text = first :: rest) : pieces p (d :: text) = (d :: first) :: rest := by
  obtain ⟨first',rest',same,ahead⟩ := piecesGo p [d] text
  obtain ⟨rfl,rfl⟩ := List.cons.inj (found.symm.trans same)
  rw [pieces, pieces.go, plain]
  exact ahead

theorem piecesAtCut (cut : p c = true) (before after : List Char) :
    pieces p (before ++ c :: after) = pieces p before ++ pieces p after := by
  induction before with
  | nil => exact piecesCut cut after
  | cons d before ih =>
      obtain ⟨first,rest,whole,_⟩ := piecesGo p [] before
      cases kind : p d with
      | true => rw [List.cons_append, piecesCut kind, piecesCut kind, ih, List.cons_append]
      | false =>
          rw [whole, List.cons_append] at ih
          rw [List.cons_append, piecesPlain kind ih, piecesPlain kind whole, List.cons_append]

theorem piecesWhole (plain : ∀ d ∈ text, p d = false) : pieces p text = [text] := by
  induction text with
  | nil => rfl
  | cons d text ih =>
      exact piecesPlain (plain d List.mem_cons_self)
        (ih fun e member => plain e (List.mem_cons_of_mem _ member))

theorem piecesHold {piece : List Char} (member : piece ∈ pieces p text) : ∀ d ∈ piece, p d = false := by
  induction text generalizing piece with
  | nil =>
      cases List.mem_singleton.mp member
      nofun
  | cons d text ih =>
      cases kind : p d with
      | true =>
          rw [piecesCut kind] at member
          rcases List.mem_cons.mp member with rfl | later
          · nofun
          · exact ih later
      | false =>
          obtain ⟨first,rest,whole,_⟩ := piecesGo p [] text
          rw [piecesPlain kind whole] at member
          rw [whole] at ih
          rcases List.mem_cons.mp member with rfl | later
          · exact List.forall_mem_cons.mpr ⟨kind,ih List.mem_cons_self⟩
          · exact ih (List.mem_cons_of_mem _ later)

theorem joinedPieces (only : ∀ d, p d = true → d = c) (text : List Char) :
    joined [c] (pieces p text) = text := by
  induction text with
  | nil => rfl
  | cons d text ih =>
      obtain ⟨first,rest,whole,_⟩ := piecesGo p [] text
      rw [whole] at ih
      cases kind : p d with
      | true =>
          rw [piecesCut kind, whole, joined, List.intercalate_cons_cons, ← joined, ih, only d kind]
          rfl
      | false =>
          rw [piecesPlain kind whole]
          cases rest with
          | nil =>
              rw [joined, List.intercalate_singleton] at ih ⊢
              exact congrArg (d :: ·) ih
          | cons next rest =>
              rw [joined, List.intercalate_cons_cons] at ih ⊢
              exact congrArg (d :: ·) ih

theorem piecesJoined (cut : p c = true) {parts : List (List Char)} (filled : parts ≠ [])
    (plain : ∀ part ∈ parts, ∀ d ∈ part, p d = false) : pieces p (joined [c] parts) = parts := by
  induction parts with
  | nil => exact absurd rfl filled
  | cons part rest ih =>
      have whole : pieces p part = [part] := piecesWhole (plain part List.mem_cons_self)
      cases rest with
      | nil => rw [joined, List.intercalate_singleton, whole]
      | cons next rest =>
          rw [joined, List.intercalate_cons_cons, List.append_assoc, List.singleton_append,
            piecesAtCut cut, whole]
          exact congrArg (part :: ·) (ih (List.cons_ne_nil _ _) fun part member =>
            plain part (List.mem_cons_of_mem _ member))

theorem piecesLength (p : Char → Bool) (text : List Char) :
    (pieces p text).length = text.countP p + 1 := by
  induction text with
  | nil => rfl
  | cons d text ih =>
      cases kind : p d with
      | true => rw [piecesCut kind, List.length_cons, ih, List.countP_cons_of_pos kind]
      | false =>
          obtain ⟨first,rest,whole,_⟩ := piecesGo p [] text
          rw [whole] at ih
          rw [piecesPlain kind whole, List.countP_cons_of_neg (by simp [kind]), ← ih]
          rfl

theorem piecesParts (cut : p c = true) {parts : List (List Char)} (filled : parts ≠ []) :
    (pieces p (joined [c] parts)).length = parts.length ↔ ∀ part ∈ parts, ∀ d ∈ part, p d = false := by
  have count : (pieces p (joined [c] parts)).length = parts.length + (parts.map (·.countP p)).sum := by
    induction parts with
    | nil => exact absurd rfl filled
    | cons part rest ih =>
        cases rest with
        | nil => simp [joined, piecesLength, Nat.add_comm]
        | cons next rest =>
            have later := ih (List.cons_ne_nil _ _)
            rw [joined, List.intercalate_cons_cons, List.append_assoc, List.singleton_append,
              piecesAtCut cut, List.length_append, ← joined, later, piecesLength]
            simp only [List.length_cons, List.map_cons, List.sum_cons]
            omega
  rw [count, Nat.add_eq_left, List.sum_eq_zero_iff_forall_eq_nat, List.forall_mem_map]
  simp only [List.countP_eq_zero, Bool.not_eq_true]

theorem joinedMember {separator : List Char} {parts : List (List Char)} (member : c ∈ joined separator parts) :
    c ∈ separator ∨ ∃ part ∈ parts, c ∈ part := by
  induction parts with
  | nil => cases member
  | cons part rest ih =>
      cases rest with
      | nil =>
          rw [joined, List.intercalate_singleton] at member
          exact .inr ⟨part,List.mem_cons_self,member⟩
      | cons next rest =>
          rw [joined, List.intercalate_cons_cons, List.append_assoc, ← joined] at member
          rcases List.mem_append.mp member with here | member
          · exact .inr ⟨part,List.mem_cons_self,here⟩
          rcases List.mem_append.mp member with between | there
          · exact .inl between
          · rcases ih there with between | ⟨other,inside,found⟩
            · exact .inl between
            · exact .inr ⟨other,List.mem_cons_of_mem _ inside,found⟩

theorem memberJoined (separator : List Char) {part : List Char} {parts : List (List Char)}
    (inside : part ∈ parts) (member : c ∈ part) : c ∈ joined separator parts := by
  induction parts with
  | nil => cases inside
  | cons first rest ih =>
      cases rest with
      | nil =>
          rw [joined, List.intercalate_singleton]
          exact List.mem_singleton.mp inside ▸ member
      | cons next rest =>
          rw [joined, List.intercalate_cons_cons, List.append_assoc, ← joined]
          rcases List.mem_cons.mp inside with rfl | later
          · exact List.mem_append_left _ member
          · exact List.mem_append_right _ (List.mem_append_right _ (ih later))

end DocBlocks.Text
