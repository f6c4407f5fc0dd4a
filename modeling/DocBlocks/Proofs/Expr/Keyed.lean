import DocBlocks.Expr.Eval
import DocBlocks.Proofs.Expr.Plain

/-! What evaluation keeps: when every value in scope has distinct keys in its mappings at every depth,
so has the value of an expression that came from a source. -/
namespace DocBlocks
open Value (Keyed keyedScalar keyedList keyedMap)

namespace Operation

theorem checkedScalar {n : Int} {value : Value} (made : checked n = .ok value) : Keyed value := by
  unfold checked at made
  split at made
  · cases made; exact keyedScalar trivial
  · cases made

theorem floatScalar {op : BinaryOp} {a b : Float} {value : Value}
    (made : floatArithmetic op a b = .ok value) : Keyed value := by
  unfold floatArithmetic at made
  dsimp only at made
  split at made
  · cases made
  · cases made; exact keyedScalar trivial

theorem powerScalar {a : Int} {n : Nat} {value : Value} (made : naturalPower a n = .ok value) :
    Keyed value := by
  unfold naturalPower at made
  split at made
  · exact checkedScalar made
  split at made
  · cases made
  · exact checkedScalar made

theorem intScalar {op : BinaryOp} {a b : Int} {value : Value}
    (made : intArithmetic op a b = .ok value) : Keyed value := by
  cases op with
  | add | sub | mul => exact checkedScalar made
  | div => exact floatScalar made
  | floorDiv =>
      simp only [intArithmetic] at made
      split at made
      · cases made
      · exact checkedScalar made
  | mod =>
      simp only [intArithmetic] at made
      split at made
      · cases made
      split at made
      · exact checkedScalar made
      · cases made
  | pow =>
      simp only [intArithmetic] at made
      split at made
      · exact floatScalar made
      split at made
      · cases made
      · exact powerScalar made

theorem repeatStringScalar {s : String} {n : Int64} {value : Value}
    (made : repeatString s n = .ok value) : Keyed value := by
  obtain ⟨times,_,made⟩ := okBind.mp made
  cases made
  exact keyedScalar trivial

theorem repeatListKeyed {items : List Value} {n : Int64} {value : Value}
    (made : repeatList items n = .ok value) (keyed : Keyed (.list items)) : Keyed value := by
  obtain ⟨times,_,made⟩ := okBind.mp made
  cases made
  rw [keyedList] at keyed ⊢
  intro value member
  split at member
  · cases member
  · obtain ⟨part,copy,inside⟩ := List.mem_flatten.mp member
    rw [(List.mem_replicate.mp copy).2] at inside
    exact keyed value inside

theorem binaryKeyed {op : BinaryOp} {a b value : Value} (made : binary op a b = .ok value)
    (left : Keyed a) (right : Keyed b) : Keyed value := by
  unfold binary at made
  split at made
  · cases made; exact keyedScalar trivial
  · cases made
    rw [keyedList] at left right ⊢
    intro value member
    rcases List.mem_append.mp member with first | second
    · exact left value first
    · exact right value second
  · exact repeatStringScalar made
  · exact repeatStringScalar made
  · exact repeatListKeyed made left
  · exact repeatListKeyed made right
  · exact intScalar made
  · split at made
    · exact floatScalar made
    · cases made

theorem unaryKeyed {op : UnaryOp} {a value : Value} (made : unary op a = .ok value) :
    Keyed value := by
  unfold unary at made
  split at made
  · cases made; exact keyedScalar trivial
  · exact checkedScalar made
  · cases made; exact keyedScalar trivial
  · cases made; exact keyedScalar trivial
  · cases made; exact keyedScalar trivial
  · cases made

theorem subscriptKeyed {a b value : Value} (made : subscript a b = .ok value) (keyed : Keyed a) :
    Keyed value := by
  unfold subscript at made
  split at made
  · rename_i items n
    unfold itemAt at made
    cases found : (place? items.length n.toInt).bind (items[·]?) with
    | none => simp [found] at made
    | some item =>
        simp only [found] at made
        cases made
        obtain ⟨place,_,there⟩ := Option.bind_eq_some_iff.mp found
        exact keyedList.mp keyed _ (List.mem_of_getElem? there)
  · rename_i s n
    cases found : itemAt s.toList n with
    | error fault => simp [found, Except.map] at made
    | ok c =>
        simp only [found, Except.map] at made
        cases made
        exact keyedScalar trivial
  · split at made
    · rename_i found
      cases made
      exact (keyedMap.mp keyed).2 _ _ (Entries.getMember found)
    · cases made
  · cases made

end Operation

namespace Expr

def KeyedScope (scope : Arguments) : Prop := ∀ name value, (name,value) ∈ scope.entries → Keyed value

def GivesKeyed (scope : Arguments) (e : Expr) : Prop :=
  ∀ value, e.eval scope = .ok value → Keyed value

variable {scope : Arguments}

theorem itemsKeyed {items : List Expr} {values : List Value}
    (each : ∀ e ∈ items, GivesKeyed scope e) (made : evalItems scope items = .ok values) :
    ∀ value ∈ values, Keyed value := by
  induction items generalizing values with
  | nil =>
      rw [evalItems] at made
      cases made
      intro value member
      cases member
  | cons item rest ih =>
      rw [evalItems] at made
      obtain ⟨value,first,made⟩ := okBind.mp made
      obtain ⟨more,others,made⟩ := okBind.mp made
      cases made
      intro value' member
      rcases List.mem_cons.mp member with rfl | there
      · exact each item (by simp) _ first
      · exact ih (fun e member => each e (by simp [member])) others value' there

theorem entriesKeyed {entries : List (Expr × Expr)} {pairs made : List (String × Value)}
    (each : ∀ key e, (key,e) ∈ entries → GivesKeyed scope e) (before : Keyed (.map pairs))
    (result : evalEntries scope pairs entries = .ok made) : Keyed (.map made) := by
  induction entries generalizing pairs with
  | nil =>
      rw [evalEntries] at result
      cases result
      exact before
  | cons entry rest ih =>
      obtain ⟨key,item⟩ := entry
      rw [evalEntries] at result
      obtain ⟨keyValue,_,result⟩ := okBind.mp result
      obtain ⟨name,_,result⟩ := okBind.mp result
      obtain ⟨value,second,result⟩ := okBind.mp result
      refine ih (fun key e member => each key e (by simp [member])) ?_ result
      obtain ⟨distinct,inside⟩ := keyedMap.mp before
      refine keyedMap.mpr ⟨Entries.insertNodup distinct,fun key' other member => ?_⟩
      rcases Entries.insertMember member with old | ⟨_,rfl⟩
      · exact inside key' other old
      · exact each key item (by simp) _ second

theorem plainKeyed (within : KeyedScope scope) {e : Expr} (plain : e.Plain) :
    GivesKeyed scope e := by
  -- only a mapping inserts keys; all other forms hand on values that were found or made
  induction plain with
  | literal scalar =>
      intro value made
      rw [eval] at made
      cases made
      exact keyedScalar scalar
  | name id =>
      intro value made
      rw [eval] at made
      split at made
      · rename_i found
        cases made
        exact within id _ (Entries.getMember found)
      · cases made
  | template =>
      intro value made
      rw [eval] at made
      obtain ⟨text,_,made⟩ := okBind.mp made
      cases made
      exact keyedScalar trivial
  | list _ each =>
      intro value made
      rw [eval] at made
      obtain ⟨values,inside,made⟩ := okBind.mp made
      cases made
      exact keyedList.mpr (itemsKeyed each inside)
  | map _ _ _ each =>
      intro value made
      rw [eval] at made
      obtain ⟨pairs,inside,made⟩ := okBind.mp made
      cases made
      have empty : Keyed (.map []) := keyedMap.mpr ⟨.nil,fun _ _ member => by cases member⟩
      exact entriesKeyed each empty inside
  | unary =>
      intro value made
      rw [eval] at made
      obtain ⟨_,_,made⟩ := okBind.mp made
      exact Operation.unaryKeyed made
  | binary _ _ _ first second =>
      intro value made
      rw [eval] at made
      obtain ⟨x,a,made⟩ := okBind.mp made
      obtain ⟨y,b,made⟩ := okBind.mp made
      exact Operation.binaryKeyed made (first x a) (second y b)
  | compare =>
      intro value made
      rw [eval] at made
      obtain ⟨_,_,made⟩ := okBind.mp made
      obtain ⟨holds,_,made⟩ := okBind.mp made
      cases made
      exact keyedScalar trivial
  | and _ _ first second =>
      intro value made
      rw [eval] at made
      obtain ⟨x,a,made⟩ := okBind.mp made
      split at made
      · exact second value made
      · cases made; exact first _ a
  | or _ _ first second =>
      intro value made
      rw [eval] at made
      obtain ⟨x,a,made⟩ := okBind.mp made
      split at made
      · cases made; exact first _ a
      · exact second value made
  | index _ _ first _ =>
      intro value made
      rw [eval] at made
      obtain ⟨x,a,made⟩ := okBind.mp made
      obtain ⟨_,_,made⟩ := okBind.mp made
      exact Operation.subscriptKeyed made (first x a)

end Expr

end DocBlocks
