import DocBlocks.Proofs.Expr.Comparison

/-! Chains of comparisons. A chain evaluates each operand between two links once and stops at the first
link that does not hold; the conjunction of its links evaluates such an operand twice and stops at the
first comparison that is not true. Both have the same outcome. -/
namespace DocBlocks.Expr

def steps (first : Expr) : List (CompareOp × Expr) → List Expr
  | [] => []
  | (op, second) :: rest => compare first [(op,second)] :: steps second rest

inductive Conjoins : List Expr → Expr → Prop where
  | one (e : Expr) : Conjoins [e] e
  | and {before after left right} (first : Conjoins before left) (second : Conjoins after right) :
      Conjoins (before ++ after) (.and left right)

def conjoin (scope : Arguments) (value : Value) (e : Expr) : Except ExprError Value :=
  if value.isTruthy then e.eval scope else .ok value

variable {scope : Arguments} {first second : Expr} {left : Value}

theorem conjoinTrue {value : Value} (truthy : value.isTruthy = true) (e : Expr) :
    conjoin scope value e = e.eval scope :=
  if_pos truthy

theorem conjoinStops (value : Value) (falsy : value.isTruthy = false) (es : List Expr) :
    es.foldlM (conjoin scope) value = .ok value := by
  induction es with
  | nil => rfl
  | cons e es ih =>
      rw [List.foldlM_cons, conjoin, if_neg (by simp [falsy])]
      exact ih

theorem conjoinsEval {es : List Expr} {e : Expr} (joins : Conjoins es e) (value : Value)
    (truthy : value.isTruthy = true) : es.foldlM (conjoin scope) value = e.eval scope := by
  induction joins generalizing value with
  | one e =>
      rw [List.foldlM_cons, conjoinTrue truthy]
      exact bind_pure _
  | and _ _ before after =>
      rw [List.foldlM_append, before value truthy, eval]
      congr 1
      funext decided
      cases kind : decided.isTruthy with
      | true => exact after decided kind
      | false => exact conjoinStops decided kind _

theorem conjoinsSome {es : List Expr} {e : Expr} (joins : Conjoins es e) : es ≠ [] := by
  induction joins with
  | one e => exact List.cons_ne_nil _ _
  | and _ _ filled _ => exact List.append_ne_nil_of_left_ne_nil filled _

theorem compareFails {links : List (CompareOp × Expr)} {e : ExprError}
    (failed : first.eval scope = .error e) : (compare first links).eval scope = .error e := by
  rw [eval, failed]
  rfl

theorem compareFailsRight (op : CompareOp) {e : ExprError} (found : first.eval scope = .ok left)
    (failed : second.eval scope = .error e) :
    (compare first [(op,second)]).eval scope = .error e := by
  rw [eval, found]
  change (evalLinks scope left [(op,second)] >>= fun holds => _) = _
  rw [evalLinks, failed]
  rfl

/- The first operand of a step was evaluated in the step before, to the value that the chain kept. -/
theorem stepsEval (links : List (CompareOp × Expr)) (found : first.eval scope = .ok left) :
    (steps first links).foldlM (conjoin scope) (.bool true) =
      (evalLinks scope left links).map Value.bool := by
  -- the left operand of a link was evaluated before, so that nothing is evaluated twice
  induction links generalizing first left with
  | nil => rfl
  | cons link rest ih =>
      obtain ⟨op,second⟩ := link
      rw [steps, List.foldlM_cons, conjoinTrue rfl, evalLinks]
      cases foundRight : second.eval scope with
      | error e =>
          rw [compareFailsRight op found foundRight]
          rfl
      | ok right =>
          rw [compareOne op found foundRight]
          change _ = Except.map Value.bool (Operation.relate op left right >>= fun holds =>
            if holds then evalLinks scope right rest else pure false)
          cases Operation.relate op left right with
          | error e => rfl
          | ok holds =>
              cases holds with
              | false => exact conjoinStops (.bool false) rfl _
              | true => exact ih foundRight

/- A chain and the conjunction of its links, nested in any way, have the same value or the same error. -/
theorem chainConjoined {links : List (CompareOp × Expr)} {conjunction : Expr}
    (joins : Conjoins (steps first links) conjunction) (scope : Arguments) :
    (compare first links).eval scope = conjunction.eval scope := by
  rw [← conjoinsEval joins (.bool true) rfl]
  cases found : first.eval scope with
  | ok left => rw [stepsEval links found, eval, found]; rfl
  | error e =>
      cases links with
      | nil => exact absurd rfl (conjoinsSome joins)
      | cons link rest =>
          rw [compareFails found, steps, List.foldlM_cons, conjoinTrue rfl, compareFails found]
          rfl

theorem threeConjoined :
    Conjoins (steps (name "a") [(.lt,name "b"),(.ne,name "c"),(.ge,name "d")])
        (.and (.and (compare (name "a") [(.lt,name "b")]) (compare (name "b") [(.ne,name "c")]))
          (compare (name "c") [(.ge,name "d")])) ∧
      ∀ scope, (compare (name "a") [(.lt,name "b"),(.ne,name "c"),(.ge,name "d")]).eval scope =
        (Expr.and (.and (compare (name "a") [(.lt,name "b")]) (compare (name "b") [(.ne,name "c")]))
          (compare (name "c") [(.ge,name "d")])).eval scope := by
  have joins := Conjoins.and (.and (.one (compare (name "a") [(.lt,name "b")]))
    (.one (compare (name "b") [(.ne,name "c")]))) (.one (compare (name "c") [(.ge,name "d")]))
  exact ⟨joins,chainConjoined joins⟩

end DocBlocks.Expr
