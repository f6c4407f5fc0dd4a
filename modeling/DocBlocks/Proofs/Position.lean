import DocBlocks.Position
import DocBlocks.Proofs.Guarded.Access
import Mathlib.Data.List.TakeWhile

/-! Points of a text. The line of an offset counts the line feeds before it and its column the bytes from the
last of them on, also inside a character and past the end. Whatever place a search among the starts of the
lines gives, it leads to this point, which goes on with the offset and so tells it. -/
namespace DocBlocks

def Earlier (a b : Nat × Nat) : Prop := a.1 < b.1 ∨ a.1 = b.1 ∧ a.2 < b.2

def Point.place (p : Point) : Nat × Nat := (p.line,p.column)

namespace LineTable
open Guarded (bytes)

section
variable {starts : List Nat} {start offset : Nat}

theorem startsBefore (starts : List Nat) {a b : Nat} (le : a ≤ b) :
    starts.takeWhile (· ≤ a) <+: starts.takeWhile (· ≤ b) := by
  have inner : starts.takeWhile (· ≤ a) = (starts.takeWhile (· ≤ b)).takeWhile (· ≤ a) := by
    rw [List.takeWhile_takeWhile]
    congr 1
    funext n
    have both : n ≤ a ↔ n ≤ a ∧ n ≤ b := by omega
    simpa using both
  rw [inner]
  exact List.takeWhile_prefix _

theorem startBelow (starts : List Nat) (offset : Nat) :
    (starts.takeWhile (· ≤ offset)).getLastD 0 ≤ offset := by
  rw [List.getLastD_eq_getLast?]
  cases last : (starts.takeWhile (· ≤ offset)).getLast? with
  | none => exact Nat.zero_le _
  | some start => simpa using List.mem_takeWhile_imp (List.mem_of_getLast? last)

theorem pointOnward (lines : LineTable) {a b : Nat} (less : a < b) :
    Earlier (lines.point a).place (lines.point b).place := by
  have shorter := startsBefore lines.later (Nat.le_of_lt less)
  rcases Nat.lt_or_eq_of_le shorter.length_le with fewer | equal
  · exact .inl (Nat.succ_lt_succ fewer)
  · have same := shorter.eq_of_length equal
    have below := startBelow lines.later a
    refine .inr ⟨congrArg (· + 1) equal,?_⟩
    simp only [Point.place, point, ← same]
    omega

end

/-! ### The starts of lines -/

structure Begins (text : List Char) (start offset : Nat) : Prop where
  ahead : start ≤ offset
  begins : start = 0 ∨ ∃ feed, (bytes text)[feed]? = some 0x0A ∧ start = feed + 1
  unbroken : ∀ feed, (bytes text)[feed]? = some 0x0A → start ≤ feed → offset ≤ feed

structure Locates (text : List Char) (offset : Nat) (p : Point) : Prop where
  own : p.offset = offset
  line : p.line = 1 + ((bytes text).take offset).count 0x0A
  column : ∃ start, Begins text start offset ∧ p.column = 1 + (offset - start)

/-- What a search for an offset among starts in order can answer: a place at which it stands, or else how
many starts are before it. -/
inductive Answers (starts : List Nat) (offset : Nat) : Except Nat Nat → Prop where
  | found {place : Nat} (here : starts[place]? = some offset) : Answers starts offset (.ok place)
  | missed {before after : List Nat} (whole : starts = before ++ after)
      (ahead : ∀ s ∈ before, s < offset) (behind : ∀ s ∈ after, offset < s) :
      Answers starts offset (.error before.length)

def lineOf : Except Nat Nat → Nat
  | .ok place => place
  | .error place => place - 1

def searched (starts : List Nat) (answer : Except Nat Nat) (offset : Nat) : Guarded Point := do
  let start ← Guarded.item starts (lineOf answer)
  let column ← Guarded.difference offset start
  return ⟨lineOf answer + 1,column + 1,offset⟩

structure Exact (text : List Char) (table : LineTable) : Prop where
  points : ∀ offset, Locates text offset (table.point offset)
  answered : ∀ offset, ∃ answer, Answers (0 :: table.later) offset answer
  searched : ∀ offset answer, Answers (0 :: table.later) offset answer →
    searched (0 :: table.later) answer offset = .ok (table.point offset)
  onward : ∀ a b, a < b → Earlier (table.point a).place (table.point b).place
  decides : ∀ a b, (table.point a).place = (table.point b).place → a = b

example : Answers [0,2,6] 5 (.error 2) ∧ searched [0,2,6] (.error 2) 5 = .ok ⟨2,4,5⟩ :=
  ⟨@Answers.missed _ _ [0,2] [6] rfl (by decide) (by decide),rfl⟩

end LineTable

end DocBlocks
