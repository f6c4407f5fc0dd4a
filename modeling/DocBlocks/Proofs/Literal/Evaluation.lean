import DocBlocks.Proofs.Literal.Reading

/-! The value of a literal's expression. -/
namespace DocBlocks.Value

def rereadFloat (x : Float) : Float :=
  let unsigned := Token.doubleOf (Decimal.unsignedText x)
  if Decimal.isSigned x then -unsigned else unsigned

mutual

def reread : Value → Value
  | .float x => if x.isFinite then .float (rereadFloat x) else .null
  | .list items => .list (rereadItems items)
  | .map entries => .map (rereadEntries entries)
  | other => other

def rereadItems : List Value → List Value
  | [] => []
  | item :: rest => item.reread :: rereadItems rest

def rereadEntries : List (String × Value) → List (String × Value)
  | [] => []
  | (key,value) :: rest => (key,value.reread) :: rereadEntries rest

end

mutual

theorem floatFreeReread : ∀ value : Value, FloatFree value → value.reread = value
  | .null, _ | .bool _, _ | .int _, _ | .string _, _ => rfl
  | .float x, free => absurd .self (free x)
  | .list items, free => by
      rw [reread, floatFreeItems items (floatFreeList.mp free)]
  | .map entries, free => by
      rw [reread, floatFreeEntries entries (floatFreeMap.mp free)]

theorem floatFreeItems : ∀ items : List Value, (∀ value ∈ items, FloatFree value) →
    rereadItems items = items
  | [], _ => rfl
  | item :: rest, free => by
      rw [rereadItems, floatFreeReread item (free item (by simp)),
        floatFreeItems rest fun value member => free value (by simp [member])]

theorem floatFreeEntries : ∀ entries : List (String × Value),
    (∀ key value, (key,value) ∈ entries → FloatFree value) → rereadEntries entries = entries
  | [], _ => rfl
  | (key,value) :: rest, free => by
      rw [rereadEntries, floatFreeReread value (free key value (by simp)),
        floatFreeEntries rest fun key value member => free key value (by simp [member])]

end

variable {scope : Arguments}

theorem evalSigned (n : Int) (lower : -0x8000000000000000 < n) (upper : n < 0x8000000000000000) :
    (signedExpr n).eval scope = .ok (.int (Int64.ofInt n)) := by
  cases n with
  | ofNat m =>
      rw [signedExpr, Expr.eval, show Int.ofNat m = (m : Int) from rfl, Int64.ofInt_eq_ofNat]
  | negSucc m =>
      have small : m + 1 < 0x8000000000000000 := by omega
      have fits : Operation.fits (Int.negSucc m) = true := by
        simp only [Operation.fits, Bool.and_eq_true, decide_eq_true_eq]
        omega
      rw [signedExpr, Expr.eval, Expr.eval]
      simp only [bind, Except.bind, Operation.unary, Int64.toInt_ofNat_of_lt small]
      rw [show -((m + 1 : Nat) : Int) = Int.negSucc m from rfl, Operation.checked, if_pos fits]

theorem evalInt (n : Int64) : (intExpr n).eval scope = .ok (.int n) := by
  have lower := n.le_toInt
  have upper := n.toInt_lt
  unfold intExpr
  split
  · rename_i least
    have value : n.toInt = -0x8000000000000000 := by rw [least]; rfl
    have first := @evalSigned scope (n.toInt + 1) (by omega) (by omega)
    rw [Expr.eval, first, value, least]
    rfl
  · rename_i above
    have strict : n.toInt ≠ -0x8000000000000000 := by
      intro same
      exact above (Int64.toInt_inj.mp (by rw [same]; rfl))
    rw [evalSigned n.toInt (by omega) upper, Int64.ofInt_toInt]

theorem evalFinite (x : Float) : (floatExpr x).eval scope = .ok (.float (rereadFloat x)) := by
  unfold floatExpr rereadFloat
  cases Decimal.isSigned x with
  | true => simp [Expr.eval, bind, Except.bind, Operation.unary]
  | false => simp [Expr.eval]

mutual

theorem evalLiteral : ∀ value : Value, Keyed value → value.expr.eval scope = .ok value.reread
  | .null, _ | .bool _, _ | .string _, _ => by rw [expr, Expr.eval]; rfl
  | .int n, _ => evalInt n
  | .float x, _ => by
      rw [expr, reread]
      split
      · exact evalFinite x
      · rw [Expr.eval]
  | .list items, keyed => by
      rw [expr, reread, Expr.eval, evalItemLiterals items (keyedList.mp keyed)]
      rfl
  | .map entries, keyed => by
      obtain ⟨distinct,inside⟩ := keyedMap.mp keyed
      rw [expr, reread, Expr.eval, evalEntryLiterals entries [] (by simpa using distinct) inside]
      rfl

theorem evalItemLiterals : ∀ items : List Value, (∀ value ∈ items, Keyed value) →
    Expr.evalItems scope (itemExprs items) = .ok (rereadItems items)
  | [], _ => by rw [itemExprs, Expr.evalItems]; rfl
  | item :: rest, keyed => by
      have others := evalItemLiterals rest fun value member => keyed value (by simp [member])
      rw [itemExprs, Expr.evalItems, evalLiteral item (keyed item (by simp)), others]
      rfl

theorem evalEntryLiterals : ∀ entries pairs : List (String × Value),
    (Entries.names (pairs ++ entries)).Nodup → (∀ key value, (key,value) ∈ entries → Keyed value) →
    Expr.evalEntries scope pairs (entryExprs entries) = .ok (pairs ++ rereadEntries entries)
  | [], pairs, _, _ => by rw [entryExprs, Expr.evalEntries, rereadEntries, List.append_nil]
  | (key,value) :: rest, pairs, distinct, keyed => by
      have first := evalLiteral value (keyed key value (by simp))
      have fresh : key ∉ Entries.names pairs := by
        intro member
        simp only [Entries.names, List.map_append, List.map_cons] at distinct member
        exact (List.nodup_append.mp distinct).2.2 key member key (by simp) rfl
      have others := evalEntryLiterals rest (pairs ++ [(key,value.reread)])
        (by simpa [Entries.names] using distinct)
        fun key value member => keyed key value (by simp [member])
      rw [entryExprs, Expr.evalEntries, Expr.eval, first]
      simp only [bind, Except.bind, Expr.keyOf, Entries.insertNew _ fresh, others, rereadEntries,
        List.append_assoc, List.cons_append, List.nil_append]

end

end DocBlocks.Value
