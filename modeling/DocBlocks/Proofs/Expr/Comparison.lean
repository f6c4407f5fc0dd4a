import DocBlocks.Expr.Eval
import DocBlocks.Proofs.Double.Standing

/-! Comparing integers. They are compared as the doubles nearest to them, so a comparison is exact for equal
integers and for those whose doubles differ; next to each other, large ones count as equal. -/
namespace DocBlocks

def CompareOp.between (op : CompareOp) (m n : Int) : Bool :=
  match op with
  | .eq => m = n
  | .ne => m ≠ n
  | .lt => m < n
  | .le => m ≤ n
  | .gt => n < m
  | .ge => n ≤ m

namespace Operation

theorem holdsBetween (op : CompareOp) (m n : Int) : holds op (compare m n) = op.between m n := by
  rcases Int.lt_trichotomy m n with less | rfl | more
  · rw [compare_lt_iff_lt.mpr less]
    cases op <;> simp [holds, CompareOp.between, less, less.le, less.ne, less.not_gt]
  · rw [compare_eq_iff_eq.mpr rfl]
    cases op <;> simp [holds, CompareOp.between]
  · rw [compare_gt_iff_gt.mpr more]
    cases op <;> simp [holds, CompareOp.between, more, more.le, more.ne', more.not_gt]

theorem relateIntegers (op : CompareOp) (a b : Int64) : relate op (.int a) (.int b) =
    .ok (op.between (Double.rounded a.toInt) (Double.rounded b.toInt)) := by
  have order : order? (.int a) (.int b) =
      some (compare (Double.rounded a.toInt) (Double.rounded b.toInt)) :=
    Double.floatOrder (Double.standsInt a) (Double.standsInt b)
  unfold relate
  rw [order]
  exact congrArg Except.ok (holdsBetween op _ _)

end Operation

namespace Expr

variable {scope : Arguments} {first second : Expr} {left right : Value}

def Gives (scope : Arguments) (first : Expr) (op : CompareOp) (second : Expr) (truth : Bool) : Prop :=
  (compare first [(op,second)]).eval scope = .ok (.bool truth)

structure Exact (scope : Arguments) (first second : Expr) (m n : Int) : Prop where
  relations : ∀ op, Gives scope first op second (op.between m n)
  one : ∃ op ∈ [CompareOp.lt,.eq,.gt], Gives scope first op second true ∧
    ∀ other ∈ [CompareOp.lt,.eq,.gt], other ≠ op → Gives scope first other second false
  listed : ∀ truth, Gives scope first .eq second truth ↔ Gives scope (list [first]) .eq (list [second]) truth

theorem compareOne (op : CompareOp) (foundLeft : first.eval scope = .ok left)
    (foundRight : second.eval scope = .ok right) : (compare first [(op,second)]).eval scope =
      (Operation.relate op left right).map Value.bool := by
  rw [eval, foundLeft]
  change (evalLinks scope left [(op,second)] >>= fun holds => _) = _
  rw [evalLinks, foundRight]
  change ((Operation.relate op left right >>= fun holds => _) >>= fun holds => _) = _
  cases Operation.relate op left right with
  | error e => rfl
  | ok holds => cases holds <;> rfl

theorem givesIff (op : CompareOp) (foundLeft : first.eval scope = .ok left)
    (foundRight : second.eval scope = .ok right) (truth : Bool) :
    Gives scope first op second truth ↔ Operation.relate op left right = .ok truth := by
  unfold Gives
  rw [compareOne op foundLeft foundRight]
  cases Operation.relate op left right with
  | error e => simp [Except.map]
  | ok holds => simp [Except.map]

theorem listEval (found : first.eval scope = .ok left) :
    (list [first]).eval scope = .ok (.list [left]) := by
  rw [eval, evalItems, found, evalItems]
  rfl

theorem listsEqual (a b : Int64) : Operation.relate .eq (.list [.int a]) (.list [.int b]) =
    .ok (CompareOp.eq.between a.toInt b.toInt) := by
  change Except.ok ((a == b) && true) = _
  rw [Bool.and_true, beq_eq_decide, CompareOp.between, decide_eq_decide.mpr Int64.toInt_inj.symm]

theorem betweenRounded {m n : Int} (kept : m = n ∨ Double.rounded m ≠ Double.rounded n)
    (op : CompareOp) : op.between (Double.rounded m) (Double.rounded n) = op.between m n := by
  rw [← Operation.holdsBetween, ← Operation.holdsBetween]
  congr 1
  rcases Int.lt_trichotomy m n with less | rfl | more
  · have apart := kept.resolve_left less.ne
    rw [compare_lt_iff_lt.mpr less,
      compare_lt_iff_lt.mpr (lt_of_le_of_ne (Double.roundedMono less.le) apart)]
  · rw [compare_eq_iff_eq.mpr rfl, compare_eq_iff_eq.mpr rfl]
  · have apart := kept.resolve_left more.ne'
    rw [compare_gt_iff_gt.mpr more,
      compare_gt_iff_gt.mpr (lt_of_le_of_ne (Double.roundedMono more.le) apart.symm)]

theorem oneBetween (m n : Int) : ∃ op ∈ [CompareOp.lt,.eq,.gt], op.between m n = true ∧
    ∀ other ∈ [CompareOp.lt,.eq,.gt], other ≠ op → other.between m n = false := by
  rcases Int.lt_trichotomy m n with less | rfl | more
  · exact ⟨.lt, by simp [CompareOp.between, less, less.ne, less.le]⟩
  · exact ⟨.eq, by simp [CompareOp.between]⟩
  · exact ⟨.gt, by simp [CompareOp.between, more, more.ne', more.le]⟩

theorem exactIff {a b : Int64} (foundLeft : first.eval scope = .ok (.int a))
    (foundRight : second.eval scope = .ok (.int b)) : Exact scope first second a.toInt b.toInt ↔
      a = b ∨ Double.rounded a.toInt ≠ Double.rounded b.toInt := by
  have given op truth : Gives scope first op second truth ↔
      op.between (Double.rounded a.toInt) (Double.rounded b.toInt) = truth := by
    rw [givesIff op foundLeft foundRight, Operation.relateIntegers, Except.ok.injEq]
  have inLists truth : Gives scope (list [first]) .eq (list [second]) truth ↔
      CompareOp.eq.between a.toInt b.toInt = truth := by
    rw [givesIff .eq (listEval foundLeft) (listEval foundRight), listsEqual, Except.ok.injEq]
  constructor
  · intro exact
    have equal := (given .eq _).mp (exact.relations .eq)
    rw [or_iff_not_imp_right, not_not]
    intro together
    simpa [CompareOp.between, together, Int64.toInt_inj] using equal
  · intro kept
    have same op := betweenRounded (kept.imp_left (congrArg Int64.toInt)) op
    simp only [same] at given
    obtain ⟨op,listed,holds,others⟩ := oneBetween a.toInt b.toInt
    exact ⟨fun op => (given op _).mpr rfl,
      ⟨op,listed,(given op _).mpr holds,fun other among apart =>
        (given other _).mpr (others other among apart)⟩,
      fun truth => (given .eq truth).trans (inLists truth).symm⟩

/- Comparisons tell how the doubles nearest to two integers are related. That is how the integers are
related just when they are equal or their doubles differ, and always up to the 53rd power of two. -/
theorem integersCompared {a b : Int64} (foundLeft : first.eval scope = .ok (.int a))
    (foundRight : second.eval scope = .ok (.int b)) :
    (∀ op, Gives scope first op second
        (op.between (Double.rounded a.toInt) (Double.rounded b.toInt))) ∧
      (Exact scope first second a.toInt b.toInt ↔
        a = b ∨ Double.rounded a.toInt ≠ Double.rounded b.toInt) ∧
      (a.toInt.natAbs ≤ 2 ^ 53 → b.toInt.natAbs ≤ 2 ^ 53 →
        Exact scope first second a.toInt b.toInt) := by
  have exactly := exactIff foundLeft foundRight
  refine ⟨fun op => ?_,exactly,fun smallLeft smallRight => exactly.mpr ?_⟩
  · rw [givesIff op foundLeft foundRight]
    exact Operation.relateIntegers op a b
  · rw [Double.roundedSmall smallLeft, Double.roundedSmall smallRight, ← Int64.toInt_inj]
    exact Classical.em _

theorem largeCompared :
    (literal (.int (-5))).eval .empty = .ok (.int (-5)) ∧
      (literal (.int 9007199254740993)).eval .empty = .ok (.int 9007199254740993) ∧
      Gives .empty (literal (.int (-5))) .lt (literal (.int 9007199254740993)) true := by
  refine ⟨rfl,rfl,?_⟩
  have compared := @integersCompared .empty (literal (.int (-5))) (literal (.int 9007199254740993))
    (-5) 9007199254740993 rfl rfl
  exact (compared.2.1.mpr (.inr (by decide))).relations .lt

theorem neighboursEqual : ¬∀ (scope : Arguments) (first second : Expr) (a b : Int64),
    first.eval scope = .ok (.int a) → second.eval scope = .ok (.int b) →
      Exact scope first second a.toInt b.toInt := by
  intro always
  have exact := always .empty (literal (.int 9007199254740992)) (literal (.int 9007199254740993))
    9007199254740992 9007199254740993 rfl rfl
  have unequal := (@exactIff .empty (literal (.int 9007199254740992))
    (literal (.int 9007199254740993)) 9007199254740992 9007199254740993 rfl rfl).mp exact
  revert unequal
  decide

end Expr

end DocBlocks
