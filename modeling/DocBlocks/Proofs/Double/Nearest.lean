import Mathlib.Algebra.Order.Ring.Nat
import Mathlib.Tactic.Ring

/-! Whole numbers rounded to the 53 bits that a double has for them. Rounding keeps the order, and it keeps
numbers apart up to the first that has a bit too many. -/
namespace DocBlocks.Double

/-- A number divided by a power of two and rounded to the nearest number, of two to the even one. -/
def halved (n k : Nat) : Nat :=
  let whole := n / 2 ^ k
  let twice := 2 * (n % 2 ^ k)
  if twice < 2 ^ k then whole else if twice = 2 ^ k then whole + whole % 2 else whole + 1

def surplus (n : Nat) : Nat := n.log2 - 52

def nearest (n : Nat) : Nat := 2 ^ surplus n * halved n (surplus n)

def rounded : Int → Int
  | .ofNat n => nearest n
  | .negSucc n => -nearest (n + 1)

example : rounded (2 ^ 53 + 1) = 2 ^ 53 ∧ rounded (-2 ^ 53 - 3) = -2 ^ 53 - 4 := by decide

theorem halvedBetween (n k : Nat) : n / 2 ^ k ≤ halved n k ∧ halved n k ≤ n / 2 ^ k + 1 := by
  unfold halved
  dsimp only
  split
  · omega
  · split <;> omega

theorem halvedMono {m n : Nat} (k : Nat) (less : m ≤ n) : halved m k ≤ halved n k := by
  have wholes : m / 2 ^ k ≤ n / 2 ^ k := Nat.div_le_div_right less
  rcases Nat.lt_or_eq_of_le wholes with apart | same
  · have first := (halvedBetween m k).2
    have second := (halvedBetween n k).1
    omega
  · have rests : m % 2 ^ k ≤ n % 2 ^ k := by
      have left := Nat.div_add_mod m (2 ^ k)
      have right := Nat.div_add_mod n (2 ^ k)
      rw [same] at left
      omega
    unfold halved
    rw [same]
    dsimp only
    split_ifs <;> omega

theorem halvedScaled (n k j : Nat) : halved (n * 2 ^ j) (k + j) = halved n k := by
  have positive : 0 < 2 ^ j := Nat.two_pow_pos j
  unfold halved
  rw [pow_add, Nat.mul_div_mul_right _ _ positive, Nat.mul_mod_mul_right, ← mul_assoc]
  simp only [Nat.mul_lt_mul_right positive, Nat.mul_left_inj positive.ne']

theorem logScaled {n : Nat} (filled : n ≠ 0) (j : Nat) : (n * 2 ^ j).log2 = n.log2 + j := by
  have bounds := (Nat.log2_eq_iff filled).mp rfl
  rw [Nat.log2_eq_iff (Nat.mul_ne_zero filled (Nat.two_pow_pos j).ne'), pow_add, Nat.add_right_comm,
    pow_add]
  exact ⟨Nat.mul_le_mul_right _ bounds.1,Nat.mul_lt_mul_of_pos_right bounds.2 (Nat.two_pow_pos j)⟩

theorem wholeBounds {n : Nat} (large : 52 ≤ n.log2) :
    2 ^ 52 ≤ n / 2 ^ surplus n ∧ n / 2 ^ surplus n < 2 ^ 53 := by
  have bits : 52 + surplus n = n.log2 := Nat.add_sub_of_le large
  have filled : n ≠ 0 := by
    rintro rfl
    exact absurd large (by decide)
  constructor
  · rw [Nat.le_div_iff_mul_le (Nat.two_pow_pos _), ← pow_add, bits]
    exact Nat.log2_self_le filled
  · rw [Nat.div_lt_iff_lt_mul (Nat.two_pow_pos _), ← pow_add, Nat.add_right_comm 52 1, bits]
    exact Nat.lt_log2_self

theorem nearestBounds {n : Nat} (large : 52 ≤ n.log2) :
    2 ^ n.log2 ≤ nearest n ∧ nearest n ≤ 2 ^ (n.log2 + 1) := by
  have bounds := wholeBounds large
  have between := halvedBetween n (surplus n)
  have bits : surplus n + 52 = n.log2 := Nat.sub_add_cancel large
  unfold nearest
  constructor
  · rw [← bits, pow_add]
    exact Nat.mul_le_mul_left _ (by omega)
  · rw [← bits, Nat.add_assoc, pow_add]
    exact Nat.mul_le_mul_left _ (by omega)

theorem nearestSmall {n : Nat} (small : n < 2 ^ 53) : nearest n = n := by
  have short : surplus n = 0 := by
    rcases Nat.eq_zero_or_pos n with rfl | filled
    · rfl
    · have bits := (Nat.log2_lt (Nat.ne_of_gt filled)).mpr small
      unfold surplus
      omega
  unfold nearest
  rw [short]
  unfold halved
  rw [pow_zero, Nat.mod_one, Nat.div_one, one_mul]
  rfl

theorem nearestScaled {n : Nat} (large : 52 ≤ n.log2) (j : Nat) :
    nearest (n * 2 ^ j) = nearest n * 2 ^ j := by
  have filled : n ≠ 0 := by
    rintro rfl
    exact absurd large (by decide)
  have longer : surplus (n * 2 ^ j) = surplus n + j := by
    unfold surplus
    rw [logScaled filled]
    omega
  rw [nearest, longer, halvedScaled, nearest, pow_add]
  ring

theorem nearestMono {m n : Nat} (less : m ≤ n) : nearest m ≤ nearest n := by
  rcases Nat.lt_or_ge n (2 ^ 53) with short | long
  · rw [nearestSmall short, nearestSmall (Nat.lt_of_le_of_lt less short)]
    exact less
  · have filled : n ≠ 0 := by omega
    have large : 53 ≤ n.log2 := (Nat.le_log2 filled).mpr long
    have bounds := nearestBounds (n := n) (by omega)
    rcases Nat.lt_or_ge m (2 ^ 53) with short | long'
    · rw [nearestSmall short]
      have power : 2 ^ 53 ≤ 2 ^ n.log2 := Nat.pow_le_pow_right two_pos large
      omega
    · have filled' : m ≠ 0 := by omega
      have large' : 53 ≤ m.log2 := (Nat.le_log2 filled').mpr long'
      have bounds' := nearestBounds (n := m) (by omega)
      -- Between two powers of two all numbers are rounded to multiples of one power.
      rcases Nat.lt_or_ge m.log2 n.log2 with fewer | as
      · have power : 2 ^ (m.log2 + 1) ≤ 2 ^ n.log2 := Nat.pow_le_pow_right two_pos fewer
        omega
      · have most := (Nat.log2_lt filled').mpr (Nat.lt_of_le_of_lt less Nat.lt_log2_self)
        have same : m.log2 = n.log2 := by omega
        unfold nearest surplus
        rw [same]
        exact Nat.mul_le_mul_left _ (halvedMono _ less)

theorem roundedMono {m n : Int} (less : m ≤ n) : rounded m ≤ rounded n := by
  cases m with
  | ofNat m =>
      cases n with
      | ofNat n => exact Int.ofNat_le.mpr (nearestMono (Int.ofNat_le.mp less))
      | negSucc n => exact absurd (Int.le_trans (Int.natCast_nonneg m) less) (Int.negSucc_not_nonneg n).mp
  | negSucc m =>
      cases n with
      | ofNat n =>
          rw [rounded, rounded]
          omega
      | negSucc n =>
          have mono := nearestMono (m := n + 1) (n := m + 1) (by omega)
          rw [rounded, rounded]
          omega

theorem roundedSmall {n : Int} (small : n.natAbs ≤ 2 ^ 53) : rounded n = n := by
  have fits {m : Nat} (small : m ≤ 2 ^ 53) : nearest m = m := by
    rcases Nat.lt_or_eq_of_le small with short | rfl
    · exact nearestSmall short
    · decide
  cases n with
  | ofNat m => exact congrArg Int.ofNat (fits small)
  | negSucc m => exact congrArg (fun count : Nat => -(count : Int)) (fits small)

end DocBlocks.Double
