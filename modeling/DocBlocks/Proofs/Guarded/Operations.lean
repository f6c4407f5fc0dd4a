import DocBlocks.Proofs.Expr.Division
import DocBlocks.Proofs.Guarded.Access

/-! The operators as a machine computes them. It divides towards zero and then corrects the quotient and the
remainder by unchecked sums, it counts a negative index from the end by another one, and it makes room for a
repetition by an unchecked product. -/
namespace DocBlocks.Guarded
open Operation

def signsDiffer (a b : Int) : Bool := decide (a < 0) != decide (b < 0)

def correct (needed : Bool) (corrected plain : Int) : Guarded Int :=
  if needed then word corrected else .ok plain

def floorDivide (a b : Int) : Tried Value :=
  if b = 0 then .of (.error .divisionByZero)
  else if fits (Int.tdiv a b) then do
    let rest ← remainder a b
    let quotient := Int.tdiv a b
    let floor ← correct (rest != 0 && signsDiffer a b) (quotient - 1) quotient
    return .int (Int64.ofInt floor)
  else .of (.error .overflow)

def floorRemainder (a b : Int) : Tried Value :=
  if b = 0 then .of (.error .divisionByZero)
  else if fits (Int.tdiv a b) then do
    let rest := Int.tmod a b
    let left ← correct (rest != 0 && signsDiffer rest b) (rest + b) rest
    return .int (Int64.ofInt left)
  else .of (.error .overflow)

def intArithmetic (op : BinaryOp) (a b : Int) : Tried Value :=
  match op with
  | .floorDiv => floorDivide a b
  | .mod => floorRemainder a b
  | op => .of (Operation.intArithmetic op a b)

def repetitions (size : Nat) (count : Int64) : Tried Nat := do
  let times ← Tried.of (Operation.repetitions size count)
  let _ ← product size times
  return times

def repeatString (s : String) (count : Int64) : Tried Value := do
  let times ← repetitions s.utf8ByteSize count
  return .string (if s.isEmpty then "" else String.join (List.replicate times s))

def repeatList (items : List Value) (count : Int64) : Tried Value := do
  let times ← repetitions items.length count
  return .list (if items.isEmpty then [] else (List.replicate times items).flatten)

def binary (op : BinaryOp) (left right : Value) : Tried Value :=
  match op, left, right with
  | .mul, .string s, .int n => repeatString s n
  | .mul, .int n, .string s => repeatString s n
  | .mul, .list items, .int n => repeatList items n
  | .mul, .int n, .list items => repeatList items n
  | op, .int a, .int b => intArithmetic op a.toInt b.toInt
  | op, left, right => .of (Operation.binary op left right)

def resolve (count : Nat) (index : Int) : Tried Nat := do
  let size ← length count
  let place ← correct (index < 0) (index + size) index
  if 0 ≤ place ∧ place < size then return place.toNat
  else .of (.error (.index ("index " ++ toString index ++ " out of range")))

def itemAt {α : Type} (items : List α) (index : Int64) : Tried α := do
  let place ← resolve items.length index.toInt
  ExceptT.lift (item items place)

def subscript (target index : Value) : Tried Value :=
  match target, index with
  | .list items, .int n => itemAt items n
  | .string s, .int n => do
      let c ← itemAt s.toList n
      return .string (String.singleton c)
  | target, index => .of (Operation.subscript target index)

theorem correctRuns {needed : Bool} {corrected plain : Int} (held : needed = true → fits corrected = true) :
    correct needed corrected plain = .ok (if needed then corrected else plain) := by
  cases needed with
  | false => rfl
  | true => exact if_pos (held rfl)

variable {a b : Int}

theorem restSign (left : Int.tmod a b ≠ 0) : Int.tmod a b < 0 ↔ a < 0 := by
  have sign := Int.sign_tmod a b
  rw [if_neg fun divides => left (Int.dvd_iff_tmod_eq_zero.mp divides)] at sign
  rw [← Int.sign_eq_neg_one_iff_neg, sign, Int.sign_eq_neg_one_iff_neg]

theorem differSplit (a b : Int) : signsDiffer a b = true ↔ (a < 0 ↔ 0 ≤ b) := by
  rw [signsDiffer, bne_iff_ne, Ne, decide_eq_decide, ← not_lt]
  tauto

theorem floorCorrected (divides : b ≠ 0) : Int.fdiv a b =
    if (Int.tmod a b != 0 && signsDiffer a b) = true then Int.tdiv a b - 1 else Int.tdiv a b := by
  rw [Int.fdiv_eq_tdiv]
  simp only [Bool.and_eq_true, bne_iff_ne, differSplit, Int.dvd_iff_tmod_eq_zero]
  by_cases left : Int.tmod a b = 0
  · simp [left]
  rcases Int.lt_or_gt_of_ne divides with negative | positive
  · have side : ¬0 ≤ b := not_le.mpr negative
    simp only [left, side, Int.sign_eq_neg_one_of_neg negative, if_false]
    by_cases below : a < 0 <;> simp [left, below, not_lt.mp]
  · simp only [left, Int.le_of_lt positive, Int.sign_eq_one_of_pos positive, if_true, if_false]
    by_cases below : a < 0 <;> simp [left, below]

theorem restCorrected (divides : b ≠ 0) : Int.fmod a b =
    if (Int.tmod a b != 0 && signsDiffer (Int.tmod a b) b) = true then Int.tmod a b + b
    else Int.tmod a b := by
  have same : (Int.tmod a b != 0 && signsDiffer (Int.tmod a b) b) =
      (Int.tmod a b != 0 && signsDiffer a b) := by
    by_cases left : Int.tmod a b = 0
    · simp [left]
    · rw [signsDiffer, signsDiffer, decide_eq_decide.mpr (restSign left)]
  rw [Int.fmod_def, floorCorrected divides, same, Int.tmod_def]
  split
  · ring
  · rfl

/- What is divided with something left over becomes at most half as large, so its floor fits. -/
theorem floorHeld (held : fits a = true) (divides : b ≠ 0) (left : Int.tmod a b ≠ 0) :
    fits (Int.tdiv a b) = true ∧ fits (Int.tdiv a b - 1) = true := by
  have two : 2 ≤ b.natAbs := by
    by_contra small
    obtain rfl | rfl : b = 1 ∨ b = -1 := by omega
    · exact left (Int.tmod_one a)
    · exact left (by rw [Int.tmod_neg, Int.tmod_one])
  have half : (Int.tdiv a b).natAbs ≤ a.natAbs / 2 := by
    rw [Int.natAbs_tdiv]
    exact Nat.div_le_div_left two (by decide)
  simp only [fits, Bool.and_eq_true, decide_eq_true_eq] at held ⊢
  omega

theorem floorHolds (held : fits a = true) (divides : b ≠ 0) : fits (Int.fdiv a b) = fits (Int.tdiv a b) := by
  rw [floorCorrected divides]
  split
  · rename_i needed
    have left : Int.tmod a b ≠ 0 := bne_iff_ne.mp (Bool.and_eq_true_iff.mp needed).1
    obtain ⟨quotient,floor⟩ := floorHeld held divides left
    rw [quotient, floor]
  · rfl

theorem restHeld (held : fits b = true) (divides : b ≠ 0) : fits (Int.fmod a b) = true := by
  obtain ⟨above,below⟩ := @fmodWithin a b
  simp only [fits, Bool.and_eq_true, decide_eq_true_eq] at held ⊢
  omega

theorem floorRuns (held : fits a = true) :
    floorDivide a b = .of (Operation.intArithmetic .floorDiv a b) := by
  rw [floorDivide, Operation.intArithmetic]
  by_cases zero : b = 0
  · rw [if_pos zero, if_pos zero]
  rw [if_neg zero, if_neg zero, checked, floorHolds held zero, floorCorrected zero]
  by_cases fit : fits (Int.tdiv a b) = true
  · have rest : remainder a b = .ok (Int.tmod a b) := by rw [remainder, if_neg zero, if_pos fit]
    rw [if_pos fit, if_pos fit]
    refine (liftBind rest).trans (liftBind (correctRuns fun needed => ?_))
    exact (floorHeld held zero (bne_iff_ne.mp (Bool.and_eq_true_iff.mp needed).1)).2
  · rw [if_neg fit, if_neg fit]

theorem remainderRuns (heldLeft : fits a = true) (heldRight : fits b = true) :
    floorRemainder a b = .of (Operation.intArithmetic .mod a b) := by
  rw [floorRemainder, Operation.intArithmetic]
  by_cases zero : b = 0
  · rw [if_pos zero, if_pos zero]
  rw [if_neg zero, if_neg zero, floorHolds heldLeft zero, checked, if_pos (restHeld heldRight zero)]
  by_cases fit : fits (Int.tdiv a b) = true
  · rw [if_pos fit, if_pos fit, restCorrected zero]
    refine liftBind (correctRuns fun needed => ?_)
    have rest := restHeld (a := a) heldRight zero
    rwa [restCorrected zero, if_pos needed] at rest
  · rw [if_neg fit, if_neg fit]

theorem intRuns (op : BinaryOp) (m n : Int64) :
    intArithmetic op m.toInt n.toInt = .of (Operation.intArithmetic op m.toInt n.toInt) := by
  have held (m : Int64) : fits m.toInt = true := (fitsIff _).mpr ⟨m,rfl⟩
  cases op with
  | floorDiv => exact floorRuns (held m)
  | mod => exact remainderRuns (held m) (held n)
  | add | sub | mul | div | pow => rfl

theorem repetitionsRun (size : Nat) (count : Int64) :
    repetitions size count = .of (Operation.repetitions size count) := by
  rw [repetitions]
  unfold Operation.repetitions repetitionLimit
  dsimp only
  split
  · rename_i allowed
    exact liftBind (if_pos (by omega))
  · rfl

theorem binaryRuns (op : BinaryOp) (left right : Value) :
    binary op left right = .of (Operation.binary op left right) := by
  have strings (s : String) (n : Int64) : repeatString s n = .of (Operation.repeatString s n) :=
    triedBind (repetitionsRun _ n) fun times => rfl
  have lists (items : List Value) (n : Int64) : repeatList items n = .of (Operation.repeatList items n) :=
    triedBind (repetitionsRun _ n) fun times => rfl
  unfold binary
  split
  · exact strings _ _
  · exact strings _ _
  · exact lists _ _
  · exact lists _ _
  · rename_i m n
    rw [intRuns]
    cases op <;> rfl
  · rfl

theorem resolveRuns {count : Nat} (short : count < 0x8000000000000000) (index : Int64) :
    resolve count index.toInt = .of (match place? count index.toInt with
      | some place => .ok place
      | none => .error (.index ("index " ++ toString index.toInt ++ " out of range"))) := by
  have counted : length count = .ok count := if_pos short
  have sum : correct (index.toInt < 0) (index.toInt + count) index.toInt =
      .ok (if index.toInt < 0 then index.toInt + count else index.toInt) := by
    rw [correctRuns]
    · simp only [decide_eq_true_eq]
    · intro negative
      have lower := index.le_toInt
      simp only [fits, Bool.and_eq_true, decide_eq_true_eq] at negative ⊢
      omega
  refine (liftBind counted).trans ((liftBind sum).trans ?_)
  rw [place?]
  generalize (if index.toInt < 0 then index.toInt + (count : Int) else index.toInt) = place
  split <;> rfl

theorem placeWithin {count place : Nat} {index : Int} (found : place? count index = some place) :
    place < count := by
  rw [place?] at found
  generalize (if index < 0 then index + (count : Int) else index) = place at found
  split at found
  · cases found
    omega
  · cases found

/- The place of an index lies in its sequence, whose length is a signed word where memory holds it. -/
theorem itemRuns {α : Type} (items : List α) (index : Int64) :
    Follows (itemAt items index) (Operation.itemAt items index) := by
  rw [itemAt, Operation.itemAt]
  by_cases short : items.length < 0x8000000000000000
  · rw [resolveRuns short]
    refine .inl ?_
    cases found : place? items.length index.toInt with
    | none => rfl
    | some place =>
        have inside := placeWithin found
        simp only [Option.bind_some, List.getElem?_eq_getElem inside]
        change item items place >>= _ = _
        rw [item, List.getElem?_eq_getElem inside]
        rfl
  · refine .inr ⟨items.length,Nat.le_of_not_lt short,?_⟩
    rw [resolve, length, if_neg short]
    rfl

theorem subscriptRuns (target index : Value) :
    Follows (subscript target index) (Operation.subscript target index) := by
  unfold subscript
  split
  · exact itemRuns _ _
  · rename_i s n
    have mapped : Operation.subscript (.string s) (.int n) =
        Operation.itemAt s.toList n >>= fun c => .ok (.string (String.singleton c)) := by
      rw [Operation.subscript]
      cases Operation.itemAt s.toList n <;> rfl
    rw [mapped]
    exact followsTry (itemRuns _ _) fun c found => .inl rfl
  · exact .inl rfl

end DocBlocks.Guarded
