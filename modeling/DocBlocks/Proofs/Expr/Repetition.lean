import DocBlocks.Proofs.Expr.Division

/-! Repetition is addition over and over, within a limit. A text or a list that is multiplied by an
integer, from either side, is added that many times to an empty one, unless it would grow too large. -/
namespace DocBlocks

namespace Operation

def addTimes (x : Value) : Nat → Value → Except ExprError Value
  | 0, sum => .ok sum
  | times + 1, sum => do addTimes x times (← binary .add sum x)

/-- Holds of the values that can be repeated, each with its size and with the empty value of its kind.
Texts are counted in bytes and lists in items. -/
inductive Repeatable : Value → Nat → Value → Prop where
  | string (s : String) : Repeatable (.string s) s.utf8ByteSize (.string "")
  | list (items : List Value) : Repeatable (.list items) items.length (.list [])

def repeatedSize (size : Nat) (count : Int64) : Int := size * max count.toInt 0

variable {x none : Value} {size : Nat}

theorem addString (s : String) (times : Nat) (sum : String) :
    addTimes (.string s) times (.string sum) =
      .ok (.string ((List.replicate times s).foldl (· ++ ·) sum)) := by
  induction times generalizing sum with
  | zero => rfl
  | succ times ih => exact ih (sum ++ s)

theorem addList (items : List Value) (times : Nat) (sum : List Value) :
    addTimes (.list items) times (.list sum) =
      .ok (.list (sum ++ (List.replicate times items).flatten)) := by
  induction times generalizing sum with
  | zero => rw [List.replicate_zero, List.flatten_nil, List.append_nil]; rfl
  | succ times ih =>
      rw [List.replicate_succ, List.flatten_cons, ← List.append_assoc]
      exact ih (sum ++ items)

theorem joinEmpty (times : Nat) : String.join (List.replicate times "") = "" := by
  induction times with
  | zero => rfl
  | succ times ih => exact ih

/- An empty text is not joined at all, since it stays empty however often it is added. -/
theorem repeatStringAdds (s : String) (count : Int64) :
    repeatString s count =
      repetitions s.utf8ByteSize count >>= fun times => addTimes (.string s) times (.string "") := by
  unfold repeatString
  congr 1
  funext times
  rw [addString]
  by_cases empty : s = ""
  · rw [empty]
    exact congrArg (fun sum => Except.ok (Value.string sum)) (joinEmpty times).symm
  · rw [if_neg (by simpa using empty)]
    rfl

theorem repeatListAdds (items : List Value) (count : Int64) :
    repeatList items count =
      repetitions items.length count >>= fun times => addTimes (.list items) times (.list []) := by
  unfold repeatList
  congr 1
  funext times
  rw [addList, List.nil_append]
  cases items with
  | nil => rw [List.flatten_replicate_nil]; rfl
  | cons item rest => rfl

theorem repeatableAdds (repeatable : Repeatable x size none) (count : Int64) :
    binary .mul x (.int count) = (repetitions size count >>= fun times => addTimes x times none) ∧
      binary .mul (.int count) x = (repetitions size count >>= fun times => addTimes x times none) := by
  cases repeatable with
  | string s => exact ⟨repeatStringAdds s count,repeatStringAdds s count⟩
  | list items => exact ⟨repeatListAdds items count,repeatListAdds items count⟩

theorem repeatableSum (repeatable : Repeatable x size none) (times : Nat) :
    ∃ sum, addTimes x times none = .ok sum := by
  cases repeatable with
  | string s => exact ⟨_,addString s times ""⟩
  | list items => exact ⟨_,addList items times []⟩

theorem repetitionsSize (size : Nat) (count : Int64) :
    repetitions size count =
      if repetitionLimit < repeatedSize size count then .error .overflow else .ok count.toInt.toNat := by
  have exact : repeatedSize size count = ((size * count.toInt.toNat : Nat) : Int) := by
    rw [repeatedSize, ← Int.toNat_eq_max, Int.natCast_mul]
  unfold repetitions
  dsimp only
  rw [exact]
  split
  · rename_i within
    rw [if_neg (by omega)]
  · rename_i large
    rw [if_pos (by omega)]

end Operation

namespace Expr
open Operation

variable {scope : Arguments} {first second : Expr} {x none : Value} {size : Nat} {count : Int64}

/- A repetition whose exact size is within the limit is a sum, from whichever side it is counted; any other
one is an overflow. -/
theorem repetitionAdds (repeatable : Repeatable x size none) (found : first.eval scope = .ok x)
    (counted : second.eval scope = .ok (.int count)) :
    (binary .mul first second).eval scope = (binary .mul second first).eval scope ∧
      ((binary .mul first second).eval scope = .error .overflow ↔
        (repetitionLimit : Int) < repeatedSize size count) ∧
      (repeatedSize size count ≤ repetitionLimit → ∃ sum,
        addTimes x (max count.toInt 0).toNat none = .ok sum ∧
          (binary .mul first second).eval scope = .ok sum) := by
  obtain ⟨behind,ahead⟩ := repeatableAdds repeatable count
  obtain ⟨sum,added⟩ := repeatableSum repeatable count.toInt.toNat
  have times : (max count.toInt 0).toNat = count.toInt.toNat := by omega
  rw [binaryEval .mul found counted, binaryEval .mul counted found, behind, ahead,
    repetitionsSize, times]
  refine ⟨rfl,?_,fun within => ⟨sum,added,?_⟩⟩
  · split
    · rename_i large
      exact ⟨fun _ => large,fun _ => rfl⟩
    · rename_i within
      refine ⟨fun overflow => ?_,fun large => absurd large within⟩
      cases added.symm.trans overflow
  · rw [if_neg (by omega)]
    exact added

theorem textRepeated :
    let text := literal (.string "é|")
    let three := literal (.int 3)
    Repeatable (.string "é|") 3 (.string "") ∧ text.eval .empty = .ok (.string "é|") ∧
      three.eval .empty = .ok (.int 3) ∧ repeatedSize 3 3 ≤ repetitionLimit ∧
      (binary .mul three text).eval .empty = .ok (.string "é|é|é|") := by
  intro text three
  have repeatable : Repeatable (.string "é|") 3 (.string "") := .string "é|"
  have within : repeatedSize 3 3 ≤ repetitionLimit := by decide
  obtain ⟨swapped,_,adds⟩ := @repetitionAdds .empty text three _ _ 3 3 repeatable rfl rfl
  obtain ⟨sum,added,found⟩ := adds within
  have whole : sum = .string "é|é|é|" := by
    cases added.symm.trans (addString "é|" 3 "")
    rfl
  exact ⟨repeatable,rfl,rfl,within,swapped.symm.trans (found.trans (congrArg Except.ok whole))⟩

end Expr

end DocBlocks
