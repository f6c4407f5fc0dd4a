import DocBlocks.Expr.Eval
import Mathlib.Data.Rat.Floor

/-! Dividing integers. The quotient is the floor of the exact one, or an overflow where the floor has no 64
bits; the remainder goes with the floor, except that the one quotient that overflows takes it along. Here
both are computed from the floor at once. `Guarded.floorDivide` and `Guarded.floorRemainder` compute them as
a machine does, which divides towards zero, looks for an overflow there and then corrects what it got;
`Guarded.floorRuns`, `Guarded.remainderRuns` and `Guarded.intRuns` prove that this gives the same values and
the same errors. -/
namespace DocBlocks

namespace Operation

variable {a b : Int64}

theorem fdivFloor (a b : Int) : Int.fdiv a b = ⌊(a : ℚ) / b⌋ := by
  have positive (m : Int) (n : Nat) : Int.fdiv m n = ⌊(m : ℚ) / (n : Int)⌋ := by
    rw [Int.fdiv_eq_ediv_of_nonneg m (Int.natCast_nonneg n), Int.cast_natCast,
      Rat.floor_intCast_div_natCast]
  obtain ⟨n,rfl | rfl⟩ := b.eq_nat_or_neg
  · exact positive a n
  · have turned := positive (-a) n
    rwa [← Int.neg_fdiv_neg, neg_neg, Int.cast_neg, neg_div, ← div_neg, ← Int.cast_neg] at turned

theorem fitsIff (n : Int) : fits n = true ↔ ∃ m : Int64, m.toInt = n := by
  simp only [fits, Bool.and_eq_true, decide_eq_true_eq]
  constructor
  · rintro ⟨lower,upper⟩
    exact ⟨Int64.ofInt n,Int64.toInt_ofInt_of_le lower upper⟩
  · rintro ⟨m,rfl⟩
    exact ⟨m.le_toInt,m.toInt_lt⟩

theorem checkedNonzero (n : Int) : checked n ≠ .error .divisionByZero := by
  unfold checked
  split <;> simp

theorem fmodWithin {m n : Int} :
    (0 < n → 0 ≤ Int.fmod m n ∧ Int.fmod m n < n) ∧
      (n < 0 → n < Int.fmod m n ∧ Int.fmod m n ≤ 0) := by
  refine ⟨fun above => ⟨Int.fmod_nonneg_of_pos m above,Int.fmod_lt_of_pos m above⟩,fun below => ?_⟩
  have turned : Int.fmod (-m) (-n) = -Int.fmod m n := Int.neg_fmod_neg m n
  have least := Int.fmod_nonneg_of_pos (-m) (Int.neg_pos_of_neg below)
  have most := Int.fmod_lt_of_pos (-m) (Int.neg_pos_of_neg below)
  omega

theorem quotientFits (divides : b ≠ 0) :
    fits (Int.fdiv a.toInt b.toInt) = true ↔ ¬(a = Int64.minValue ∧ b = -1) := by
  have least : a.toInt = -0x8000000000000000 ↔ a = Int64.minValue := Int64.toInt_inj (y := Int64.minValue)
  have minusOne : b.toInt = -1 ↔ b = -1 := Int64.toInt_inj (y := -1)
  have nonzero : b.toInt ≠ 0 := fun zero => divides (Int64.toInt_inj.mp zero)
  have whole := Int.mul_fdiv_add_fmod a.toInt b.toInt
  obtain ⟨above,below⟩ := @fmodWithin a.toInt b.toInt
  have lower := a.le_toInt
  have upper := a.toInt_lt
  simp only [fits, Bool.and_eq_true, decide_eq_true_eq, ← least, ← minusOne]
  generalize a.toInt = m at *
  generalize b.toInt = n at *
  generalize Int.fdiv m n = q at *
  generalize Int.fmod m n = r at *
  rcases Int.lt_or_gt_of_ne nonzero with negative | positive
  · obtain ⟨_,_⟩ := below negative
    by_cases one : n = -1
    · subst one
      omega
    · have small : n ≤ -2 := by omega
      refine iff_of_true ⟨?_,?_⟩ fun pair => one pair.2 <;> nlinarith
  · obtain ⟨_,_⟩ := above positive
    refine iff_of_true ⟨?_,?_⟩ (by omega) <;> nlinarith

theorem checkedFits (m : Int64) : checked m.toInt = .ok (.int m) := by
  rw [checked, if_pos ((fitsIff _).mpr ⟨m,rfl⟩), Int64.ofInt_toInt]

theorem checkedOverflow {n : Int} (large : ∀ m : Int64, m.toInt ≠ n) : checked n = .error .overflow :=
  if_neg fun fit => (fitsIff n).mp fit |>.elim large

theorem floorDivided (a b : Int64) : binary .floorDiv (.int a) (.int b) =
    if b = 0 then .error .divisionByZero else checked ⌊(a.toInt : ℚ) / b.toInt⌋ := by
  have zero : b.toInt = 0 ↔ b = 0 := Int64.toInt_inj (y := 0)
  change (if b.toInt = 0 then _ else _) = _
  simp only [zero, fdivFloor]

theorem floorLeft (a b : Int64) : binary .mod (.int a) (.int b) =
    if b = 0 then .error .divisionByZero
    else if a = Int64.minValue ∧ b = -1 then .error .overflow
    else checked (a.toInt - b.toInt * ⌊(a.toInt : ℚ) / b.toInt⌋) := by
  have zero : b.toInt = 0 ↔ b = 0 := Int64.toInt_inj (y := 0)
  change (if b.toInt = 0 then _ else if _ then _ else _) = _
  simp only [zero, ← fdivFloor, ← Int.fmod_def]
  split
  · rfl
  · rename_i divides
    by_cases pair : a = Int64.minValue ∧ b = -1
    · rw [if_pos pair, if_neg fun fit => (quotientFits divides).mp fit pair]
    · rw [if_neg pair, if_pos ((quotientFits divides).mpr pair)]

theorem remainderHeld (a : Int) (divides : b ≠ 0) : ∃ r : Int64,
    r.toInt = a - b.toInt * ⌊(a : ℚ) / b.toInt⌋ ∧ (r.toInt = 0 ∨ r.toInt.sign = b.toInt.sign) ∧
      r.toInt.natAbs < b.toInt.natAbs := by
  rw [← fdivFloor, ← Int.fmod_def]
  obtain ⟨above,below⟩ := @fmodWithin a b.toInt
  have nonzero : b.toInt ≠ 0 := fun zero => divides (Int64.toInt_inj.mp zero)
  have lower := b.le_toInt
  have upper := b.toInt_lt
  generalize Int.fmod a b.toInt = rest at *
  obtain ⟨r,same⟩ := (fitsIff rest).mp (by simp only [fits, Bool.and_eq_true, decide_eq_true_eq]; omega)
  refine ⟨r,same,?_,by omega⟩
  rw [same]
  rcases Int.lt_or_gt_of_ne nonzero with negative | positive
  · rw [Int.sign_eq_neg_one_of_neg negative, Int.sign_eq_neg_one_iff_neg]
    omega
  · rw [Int.sign_eq_one_of_pos positive, Int.sign_eq_one_iff_pos]
    omega

end Operation

namespace Expr

variable {scope : Arguments} {first second : Expr} {a b : Int64}

structure FloorsQuotient (scope : Arguments) (first second : Expr) (a b : Int64) : Prop where
  fits : b ≠ 0 → ∀ q : Int64, q.toInt = ⌊(a.toInt : ℚ) / b.toInt⌋ →
    (binary .floorDiv first second).eval scope = .ok (.int q)
  overflows : b ≠ 0 → (∀ q : Int64, q.toInt ≠ ⌊(a.toInt : ℚ) / b.toInt⌋) →
    (binary .floorDiv first second).eval scope = .error .overflow

def LeavesRemainder (scope : Arguments) (first second : Expr) (a b : Int64) : Prop :=
  b ≠ 0 → ∃ r : Int64, (binary .mod first second).eval scope = .ok (.int r) ∧
    r.toInt = a.toInt - b.toInt * ⌊(a.toInt : ℚ) / b.toInt⌋ ∧
    (r.toInt = 0 ∨ r.toInt.sign = b.toInt.sign) ∧ r.toInt.natAbs < b.toInt.natAbs

def ToldZero (scope : Arguments) (first second : Expr) (b : Int64) : Prop :=
  ∀ op ∈ [BinaryOp.floorDiv,.mod],
    (binary op first second).eval scope = .error .divisionByZero ↔ b = 0

theorem binaryEval {left right : Value} (op : BinaryOp) (foundLeft : first.eval scope = .ok left)
    (foundRight : second.eval scope = .ok right) :
    (binary op first second).eval scope = Operation.binary op left right := by
  rw [eval, foundLeft, foundRight]
  rfl

/- The quotient is the floor of the exact one, with an overflow only where that has no 64 bits. The
remainder is what the floor leaves over, except where the quotient overflows: then so does it. By
`Guarded.intRuns` all of this holds as well of the quotient that is truncated and then corrected. -/
theorem integersDivided (foundLeft : first.eval scope = .ok (.int a))
    (foundRight : second.eval scope = .ok (.int b)) :
    FloorsQuotient scope first second a b ∧ ToldZero scope first second b ∧
      (LeavesRemainder scope first second a b ↔ ¬(a = Int64.minValue ∧ b = -1)) ∧
      (a = Int64.minValue → b = -1 →
        (binary .mod first second).eval scope = .error .overflow) := by
  have quotient := (binaryEval .floorDiv foundLeft foundRight).trans (Operation.floorDivided a b)
  have remainder := (binaryEval .mod foundLeft foundRight).trans (Operation.floorLeft a b)
  have failed : a = Int64.minValue → b = -1 →
      (binary .mod first second).eval scope = .error .overflow := by
    rintro rfl rfl
    exact remainder
  refine ⟨⟨fun divides q same => ?_,fun divides large => ?_⟩,?_,⟨?_,fun other divides => ?_⟩,failed⟩
  · rw [quotient, if_neg divides, ← same, Operation.checkedFits]
  · rw [quotient, if_neg divides, Operation.checkedOverflow large]
  · intro op member
    rcases List.mem_cons.mp member with rfl | member
    · rw [quotient]
      split <;> simp_all [Operation.checkedNonzero]
    · cases List.mem_singleton.mp member
      rw [remainder]
      split
      · simp_all
      split <;> simp_all [Operation.checkedNonzero]
  · rintro leaves ⟨rfl,rfl⟩
    obtain ⟨r,given,_⟩ := leaves (by decide)
    cases given.symm.trans (failed rfl rfl)
  · obtain ⟨r,exact,side,small⟩ := Operation.remainderHeld a.toInt divides
    refine ⟨r,?_,exact,side,small⟩
    rw [remainder, if_neg divides, if_neg other, ← exact, Operation.checkedFits]

theorem negativeDivided :
    (literal (.int (-7))).eval .empty = .ok (.int (-7)) ∧
      (literal (.int 2)).eval .empty = .ok (.int 2) ∧
      (binary .floorDiv (literal (.int (-7))) (literal (.int 2))).eval .empty = .ok (.int (-4)) ∧
      LeavesRemainder .empty (literal (.int (-7))) (literal (.int 2)) (-7) 2 := by
  obtain ⟨quotient,_,remainder,_⟩ := @integersDivided .empty (literal (.int (-7)))
    (literal (.int 2)) (-7) 2 rfl rfl
  have floor : ⌊((Int64.toInt (-7) : ℤ) : ℚ) / (Int64.toInt 2 : ℤ)⌋ = -4 :=
    (Operation.fdivFloor _ _).symm.trans (by decide)
  exact ⟨rfl,rfl,quotient.fits (by decide) (-4) floor.symm,remainder.mpr (by decide)⟩

theorem leastOverflows : ¬∀ (scope : Arguments) (first second : Expr) (a b : Int64),
    first.eval scope = .ok (.int a) → second.eval scope = .ok (.int b) →
      FloorsQuotient scope first second a b ∧ LeavesRemainder scope first second a b ∧
        ToldZero scope first second b := by
  intro always
  obtain ⟨_,leaves,_⟩ := always .empty (literal (.int Int64.minValue)) (literal (.int (-1)))
    Int64.minValue (-1) rfl rfl
  obtain ⟨r,given,_⟩ := leaves (by decide)
  have failed : (binary .mod (literal (.int Int64.minValue)) (literal (.int (-1)))).eval .empty =
      .error .overflow := (binaryEval .mod rfl rfl).trans (Operation.floorLeft _ _)
  cases given.symm.trans failed

end Expr

end DocBlocks
