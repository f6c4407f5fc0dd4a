import DocBlocks.Expr.Operation
import DocBlocks.Proofs.Double.Nearest
import Mathlib

/-! Doubles as the numbers that they stand for. An integer of 64 bits becomes the double that stands for the
integer rounded, and doubles are ordered as their numbers are. -/
namespace DocBlocks.Double
open Float.Model
open Float.Model.UnpackedFloat

structure Shifted (n k : Nat) (em : ExtendedMantissa) : Prop where
  mantissa : em.mantissa = n / 2 ^ k
  roundBit : em.roundBit = true ↔ 2 ^ k ≤ 2 * (n % 2 ^ k)
  stickyBit : em.stickyBit = true ↔ 2 * (n % 2 ^ k) % 2 ^ k ≠ 0

theorem shiftedNext {n k : Nat} {em : ExtendedMantissa} (shifted : Shifted n k em) :
    Shifted n (k + 1) em.shiftRightOne := by
  obtain ⟨mantissa,roundBit,stickyBit⟩ := shifted
  have power : 2 ^ (k + 1) = 2 ^ k * 2 := pow_succ 2 k
  have positive : 0 < 2 ^ k := Nat.two_pow_pos k
  have small : n % 2 ^ k < 2 ^ k := Nat.mod_lt n positive
  have rest : n % 2 ^ (k + 1) = n % 2 ^ k + 2 ^ k * (n / 2 ^ k % 2) := by
    rw [power, Nat.mod_mul]
  have double : 2 * (n % 2 ^ (k + 1)) % 2 ^ (k + 1) = 2 * (n % 2 ^ k) := by
    rw [power, mul_comm (2 ^ k) 2, Nat.mul_mod_mul_left, ← mul_comm (2 ^ k) 2, ← power, rest,
      Nat.add_mul_mod_self_left, Nat.mod_mod]
  have parity : n / 2 ^ k % 2 = 0 ∨ n / 2 ^ k % 2 = 1 := by omega
  refine ⟨?_,?_,?_⟩
  · rw [power, ← Nat.div_div_eq_div_mul, ← mantissa]
    rfl
  · rw [rest, power]
    simp only [ExtendedMantissa.shiftRightOne, mantissa, bne_iff_ne]
    rcases parity with even | odd
    · rw [even]
      omega
    · rw [odd]
      omega
  · rw [double]
    simp only [ExtendedMantissa.shiftRightOne, Bool.or_eq_true, roundBit, stickyBit]
    by_cases reached : 2 ^ k ≤ 2 * (n % 2 ^ k)
    · simp only [reached, true_or, true_iff]
      omega
    · rw [Nat.mod_eq_of_lt (Nat.lt_of_not_le reached)]
      simp only [reached, false_or]

theorem shiftedBy (n k : Nat) : Shifted n k (ExtendedMantissa.mk n false false >>> k) := by
  induction k with
  | zero =>
      have whole : n % 2 ^ 0 = 0 := Nat.mod_one n
      refine ⟨(Nat.div_one n).symm,?_,?_⟩
      · rw [whole]
        exact ⟨nofun,nofun⟩
      · rw [whole]
        exact ⟨nofun,fun h => absurd rfl h⟩
  | succ k ih => exact shiftedNext ih

theorem shiftedRounded {n k : Nat} {em : ExtendedMantissa} (shifted : Shifted n k em) :
    em.roundedMantissa = halved n k := by
  obtain ⟨mantissa,roundBit,stickyBit⟩ := shifted
  obtain ⟨whole,half,more⟩ := em
  dsimp only at mantissa roundBit stickyBit
  have small : n % 2 ^ k < 2 ^ k := Nat.mod_lt n (Nat.two_pow_pos k)
  rw [mantissa]
  unfold halved
  dsimp only
  split
  · rename_i below
    have noHalf : half = false := by
      rw [← Bool.not_eq_true, roundBit]
      omega
    rw [noHalf]
    cases more <;> rfl
  · rename_i reached
    have isHalf : half = true := roundBit.mpr (Nat.le_of_not_lt reached)
    rw [isHalf]
    split
    · rename_i exactly
      have noMore : more = false := by
        rw [← Bool.not_eq_true, stickyBit, exactly, Nat.mod_self]
        exact fun h => h rfl
      rw [noMore]
      rfl
    · have isMore : more = true := by
        rw [stickyBit, Nat.mod_eq_sub_mod (Nat.le_of_not_lt reached), Nat.mod_eq_of_lt (by omega)]
        omega
      rw [isMore]
      rfl

theorem targetExponent (n : Nat) (e : Int) (lower : -1074 ≤ n.log2 + e - 52) :
    Format.binary64.targetExponent (totalExponent n e) = n.log2 + e - 52 := by
  simp only [Format.targetExponent, totalExponent, Format.mantissaBits, Format.minExponent]
  norm_num
  omega

inductive Stands (top : Int) : ℚ → UnpackedFloat → Prop where
  | zero (s : Sign) : Stands top 0 (.zero s)
  | finite (s : Sign) (whole : Nat) (e : Int) (filled : 0 < whole) (normal : whole.log2 = 52)
      (lower : -1074 ≤ e) (upper : e ≤ top) :
      Stands top (s.apply whole * (2 : ℚ) ^ e) (.finite s whole e filled)

theorem Stands.weaken {top higher : Int} {x : ℚ} {u : UnpackedFloat} (stands : Stands top x u)
    (above : top ≤ higher) : Stands higher x u := by
  cases stands with
  | zero s => exact .zero s
  | finite s whole e filled normal lower upper =>
      exact .finite s whole e filled normal lower (Int.le_trans upper above)

theorem shiftedOnce (n : Nat) (e : Int) (lower : -1074 ≤ n.log2 + e - 52) :
    shiftToTargetExponent Format.binary64 n e .exact =
      (ExtendedMantissa.mk n false false >>> surplus n,e + surplus n) := by
  have amount : (n.log2 + e - 52 - e).toNat = surplus n := by
    unfold surplus
    omega
  unfold shiftToTargetExponent
  rw [targetExponent n e lower]
  unfold shiftToExponent
  dsimp only
  rw [amount]
  rfl

theorem standsRounded (s : Sign) {n : Nat} {e : Int} (large : 52 ≤ n.log2)
    (lower : -1074 ≤ n.log2 + e - 52) :
    Stands (n.log2 + e - 51) (s.apply (nearest n) * (2 : ℚ) ^ e)
      (roundWithAccuracy Format.binary64 s n e .exact) := by
  have rounded := shiftedRounded (shiftedBy n (surplus n))
  have bounds := wholeBounds large
  have between := halvedBetween n (surplus n)
  have value : (s.apply (nearest n) : ℚ) * 2 ^ e =
      s.apply (halved n (surplus n)) * 2 ^ (e + surplus n) := by
    rw [nearest, zpow_add₀ two_ne_zero, zpow_natCast]
    cases s <;> simp only [Sign.apply] <;> push_cast <;> ring
  have place : (n.log2 : Int) = 52 + surplus n := by
    unfold surplus
    omega
  unfold roundWithAccuracy
  rw [shiftedOnce n e lower]
  dsimp only
  rw [rounded, value]
  generalize halved n (surplus n) = count at between
  rcases Nat.lt_or_ge count (2 ^ 53) with short | full
  · have filled : count ≠ 0 := by omega
    have bits : count.log2 = 52 := (Nat.log2_eq_iff filled).mpr ⟨by omega,short⟩
    have fits : surplus count = 0 := by rw [surplus, bits]
    rw [shiftedOnce count _ (by omega), fits]
    change Stands _ _ (if filled : count = 0 then _ else .finite s count (e + surplus n + 0) _)
    rw [dif_neg filled, add_zero]
    exact .finite s count _ _ bits (by omega) (by omega)
  · -- Rounding up has made one bit more, and the last one of them is zero.
    have exactly : count = 2 ^ 53 := by omega
    have bits : count.log2 = 53 := by rw [exactly]; exact Nat.log2_two_pow
    have longer : surplus count = 1 := by rw [surplus, bits]
    rw [shiftedOnce count _ (by omega), longer, exactly]
    have same : (s.apply (2 ^ 53 : Nat) : ℚ) * 2 ^ (e + surplus n) =
        s.apply (2 ^ 52 : Nat) * 2 ^ (e + surplus n + (1 : Nat)) := by
      rw [Nat.cast_one, zpow_add_one₀ two_ne_zero]
      cases s <;> simp only [Sign.apply] <;> push_cast <;> ring
    rw [same]
    exact .finite s (2 ^ 52) _ _ Nat.log2_two_pow (by omega) (by omega)

theorem unpackSignOf {spec : Format} (s : Sign) (e : BitVec spec.exponentBits)
    (m : BitVec spec.mantissaBitsWithoutImplicit) :
    Sign.ofBitVec (unpackSign (packComponents spec s e m)) = s := by
  have bit : unpackSign (packComponents spec s e m) = s.toBitVec := by
    apply BitVec.eq_of_getLsbD_eq
    intro i within
    obtain rfl : i = 0 := Nat.lt_one_iff.mp within
    simp [unpackSign, packComponents, BitVec.getLsbD_append, BitVec.getElem_append]
  rw [bit]
  cases s <;> rfl

theorem finitePacked {s : Sign} {whole : Nat} {e : Int} {filled : 0 < whole}
    (normal : whole.log2 = 52) (lower : -1074 ≤ e) (upper : e ≤ 970) :
    (Float.Model.pack (.finite s whole e filled)).unpack = .finite s whole e filled := by
  have bits := (Nat.log2_eq_iff (Nat.ne_of_gt filled)).mp normal
  have bias : (Format.binary64.exponentBias : Int) = 1023 := rfl
  have biased : (e + (Format.binary64.exponentBias : Nat) + (52 : Nat)).toNat = (e + 1075).toNat := by
    rw [bias]
    omega
  have packed : UnpackedFloat.pack Format.binary64 (.finite s whole e filled) =
      packComponents Format.binary64 s (BitVec.ofNat 11 (e + 1075).toNat) (BitVec.ofNat 52 whole) := by
    unfold UnpackedFloat.pack
    dsimp only
    rw [biased, if_neg (by omega), normal]
    rfl
  -- the exponent is stored with its bias and the mantissa without its first bit, which is one
  unfold Float.Model.unpack Float.Model.pack
  change UnpackedFloat.unpack Format.binary64 (UnpackedFloat.pack Format.binary64 _) = _
  rw [packed]
  unfold UnpackedFloat.unpack
  simp only [unpackExponent_packComponents, unpackMantissa_packComponents, unpackSignOf]
  have exponent : (BitVec.ofNat 11 (e + 1075).toNat).toNat = (e + 1075).toNat := by
    rw [BitVec.toNat_ofNat, Nat.mod_eq_of_lt (by omega)]
  have mantissa : (1#1 ++ BitVec.ofNat 52 whole).toNat = whole := by
    rw [BitVec.toNat_append, ← Nat.shiftLeft_add_eq_or_of_lt (BitVec.isLt _), BitVec.toNat_ofNat,
      BitVec.toNat_ofNat, Nat.shiftLeft_eq]
    omega
  rw [if_neg, if_neg]
  · simp only [mantissa, exponent, bias]
    congr 1
    omega
  · intro none
    have zero := congrArg BitVec.toNat none
    rw [exponent] at zero
    change (e + 1075).toNat = 0 at zero
    omega
  · intro all
    have most := congrArg BitVec.toNat all
    rw [exponent] at most
    change (e + 1075).toNat = 2047 at most
    omega

theorem standsPacked {top : Int} {x : ℚ} {u : UnpackedFloat} (stands : Stands top x u)
    (small : top ≤ 970) : (Float.Model.pack u).unpack = u := by
  cases stands with
  | zero s => cases s <;> rfl
  | finite s whole e filled normal lower upper =>
      exact finitePacked normal lower (Int.le_trans upper small)

theorem scaledBack (n j : Nat) : ((n * 2 ^ j : Nat) : ℚ) * 2 ^ (-j : Int) = n := by
  rw [zpow_neg, zpow_natCast, Nat.cast_mul, Nat.cast_pow, Nat.cast_ofNat, mul_assoc,
    mul_inv_cancel₀ (pow_ne_zero j two_ne_zero), mul_one]

theorem standsNormalized {n : Nat} (filled : n ≠ 0) (small : n < 2 ^ 53) :
    Stands 1 n (UnpackedFloat.ofInt Format.binary64 n) := by
  have bits := (Nat.log2_lt filled).mpr small
  have positive : compare (n : Int) 0 = .gt := compare_gt_iff_gt.mpr (by omega)
  unfold UnpackedFloat.ofInt UnpackedFloat.normalize
  rw [positive]
  dsimp only
  unfold UnpackedFloat.round
  rw [Int.toNat_natCast, targetExponent n 0 (by omega)]
  unfold decreaseExponent
  dsimp only
  rw [show (0 - ((n.log2 : Int) + 0 - 52)).toNat = 52 - n.log2 by omega, Nat.shiftLeft_eq]
  generalize room : 52 - n.log2 = j
  have scaled : (n * 2 ^ j).log2 = 52 := by
    rw [logScaled filled]
    omega
  have short : n * 2 ^ j < 2 ^ 53 :=
    (Nat.log2_lt (Nat.mul_ne_zero filled (Nat.two_pow_pos _).ne')).mp (by omega)
  have stands := standsRounded .positive (n := n * 2 ^ j) (e := 0 - j) (by omega) (by omega)
  rw [nearestSmall short, Sign.apply, Int.cast_natCast, zero_sub, scaledBack] at stands
  rw [zero_sub]
  exact stands.weaken (by omega)

theorem standsProduct {top : Int} {x : ℚ} {u : UnpackedFloat} {j : Nat} (single : 0 < 2 ^ j)
    (stands : Stands top x u) : Stands (top + 1) x (UnpackedFloat.mul Format.binary64 u
      (.finite .positive (2 ^ j) (-j) single)) := by
  cases stands with
  | zero s => cases s <;> exact .zero _
  | finite s whole e filled normal lower upper =>
      have scaled : (whole * 2 ^ j).log2 = 52 + j := by
        rw [logScaled (Nat.ne_of_gt filled), normal]
      have short := ((Nat.log2_eq_iff (Nat.ne_of_gt filled)).mp normal).2
      have stands := standsRounded s (n := whole * 2 ^ j) (e := e + -j) (by omega) (by omega)
      have same : (s.apply (nearest (whole * 2 ^ j)) : ℚ) * 2 ^ (e + -j : Int) =
          s.apply whole * 2 ^ e := by
        rw [nearestScaled (Nat.le_of_eq normal.symm), nearestSmall short, zpow_add₀ two_ne_zero,
          zpow_neg, zpow_natCast]
        cases s <;> simp only [Sign.apply] <;> push_cast <;> field_simp
      have sign : s * Sign.positive = s := by cases s <;> rfl
      rw [same] at stands
      unfold UnpackedFloat.mul
      dsimp only
      rw [sign]
      exact stands.weaken (by omega)

theorem standsNat {n : Nat} (filled : n ≠ 0) (small : n < 2 ^ 64) :
    Stands 13 (nearest n) (Float.ofNat n).toModel.unpack := by
  change Stands _ _ (Float.ofScientific n false 0).toModel.unpack
  unfold Float.ofScientific
  rcases Nat.lt_or_ge n (2 ^ 53) with short | large
  · have normalized := standsNormalized filled short
    rw [nearestSmall short, dif_pos ⟨short,by decide⟩]
    have read : (Float.Model.pack (UnpackedFloat.ofUInt64 Format.binary64 n.toUInt64)).unpack =
        UnpackedFloat.ofInt Format.binary64 n := by
      unfold UnpackedFloat.ofUInt64 UnpackedFloat.ofNat
      rw [Nat.toUInt64, UInt64.toNat_ofNat_of_lt' small]
      exact standsPacked normalized (by decide)
    have one : (Float.ofBits 0x3FF0000000000000).toModel.unpack =
      .finite .positive (2 ^ 52) (-(52 : Nat)) (by decide) := by rfl
    have product := standsProduct (j := 52) (by decide) normalized
    change Stands _ _ (Float.Model.pack (UnpackedFloat.mul Format.binary64
      (Float.Model.pack (UnpackedFloat.ofUInt64 Format.binary64 n.toUInt64)).unpack
      (Float.ofBits 0x3FF0000000000000).toModel.unpack)).unpack
    rw [read, one, standsPacked product (by decide)]
    exact product.weaken (by decide)
  · have bits : 53 ≤ n.log2 ∧ n.log2 < 64 :=
      ⟨(Nat.le_log2 filled).mpr large,(Nat.log2_lt filled).mpr small⟩
    rw [dif_neg (by omega)]
    dsimp only
    change Stands _ _ (Float.Model.pack (UnpackedFloat.ofScientific Format.binary64 n 0)).unpack
    have same : UnpackedFloat.ofScientific Format.binary64 n 0 =
        roundWithAccuracy Format.binary64 .positive (n * 2 ^ 53) (-53) .exact := by
      unfold UnpackedFloat.ofScientific
      rw [dif_neg filled, if_neg (by decide), if_neg, if_pos (by decide)]
      · have shifted : n <<< Format.binary64.mantissaBits = n * 2 ^ 53 := Nat.shiftLeft_eq n 53
        unfold UnpackedFloat.mul
        dsimp only
        rw [shifted, Int.toNat_zero, pow_zero, mul_one]
        rfl
      · change ¬ (0 : Int) < -(2 ^ 11 + n.log2)
        omega
    have scaled : (n * 2 ^ 53).log2 = n.log2 + 53 := logScaled filled 53
    have stands := standsRounded .positive (n := n * 2 ^ 53) (e := -(53 : Nat)) (by omega) (by omega)
    rw [nearestScaled (by omega), Sign.apply, Int.cast_natCast, scaledBack] at stands
    change Stands _ _ (roundWithAccuracy _ _ _ (-53) _) at stands
    rw [same, standsPacked stands (by omega)]
    exact stands.weaken (by omega)

theorem standsNegated {top : Int} {x : ℚ} {u : UnpackedFloat} (stands : Stands top x u) :
    Stands top (-x) u.neg := by
  cases stands with
  | zero s => rw [neg_zero]; exact .zero _
  | finite s whole e filled normal lower upper =>
      have same : -((s.apply whole : ℚ) * 2 ^ e) = (-s).apply whole * 2 ^ e := by
        cases s
        · change -(((-(whole : Int) : Int) : ℚ) * 2 ^ e) = ((whole : Int) : ℚ) * 2 ^ e
          push_cast
          ring
        · change -(((whole : Int) : ℚ) * 2 ^ e) = ((-(whole : Int) : Int) : ℚ) * 2 ^ e
          push_cast
          ring
      rw [same]
      exact .finite _ whole e filled normal lower upper

theorem standsInt (n : Int64) : Stands 13 (rounded n.toInt) (Float.ofInt n.toInt).toModel.unpack := by
  have lower := n.le_toInt
  have upper := n.toInt_lt
  cases whole : n.toInt with
  | ofNat m =>
      rw [whole, Int.ofNat_eq_natCast] at upper
      rcases Nat.eq_zero_or_pos m with rfl | filled
      · exact .zero _
      · exact standsNat (Nat.ne_of_gt filled) (by omega)
  | negSucc m =>
      rw [whole] at lower
      have negated := standsNegated (standsNat (n := m + 1) (Nat.succ_ne_zero m) (by omega))
      change Stands 13 _ (Float.Model.pack (Float.ofNat (m + 1)).toModel.unpack.neg).unpack
      rw [standsPacked negated (by decide), rounded]
      push_cast
      exact negated

theorem finiteLess {whole whole' : Nat} {e e' : Int} (filled : 0 < whole) (filled' : 0 < whole')
    (normal : whole.log2 = 52) (normal' : whole'.log2 = 52) (earlier : e < e') :
    (whole : ℚ) * 2 ^ e < whole' * 2 ^ e' := by
  have bits := (Nat.log2_eq_iff (Nat.ne_of_gt filled)).mp normal
  have bits' := (Nat.log2_eq_iff (Nat.ne_of_gt filled')).mp normal'
  have double : whole < whole' * 2 := by omega
  calc (whole : ℚ) * 2 ^ e < (whole' * 2) * 2 ^ e := by
        refine mul_lt_mul_of_pos_right ?_ (zpow_pos two_pos e)
        exact_mod_cast double
    _ = whole' * 2 ^ (e + 1) := by rw [zpow_add_one₀ two_ne_zero]; ring
    _ ≤ whole' * 2 ^ e' := by
        refine mul_le_mul_of_nonneg_left ?_ (Nat.cast_nonneg whole')
        exact zpow_le_zpow_right₀ one_le_two earlier

theorem finiteOrder {whole whole' : Nat} {e e' : Int} (filled : 0 < whole) (filled' : 0 < whole')
    (normal : whole.log2 = 52) (normal' : whole'.log2 = 52) :
    (compare e e').then (compare whole whole') = compare ((whole : ℚ) * 2 ^ e) (whole' * 2 ^ e') := by
  rcases lt_trichotomy e e' with less | rfl | more
  · rw [compare_lt_iff_lt.mpr less, compare_lt_iff_lt.mpr (finiteLess filled filled' normal normal' less)]
    rfl
  · have positive : (0 : ℚ) < 2 ^ e := zpow_pos two_pos e
    rw [compare_eq_iff_eq.mpr rfl, Ordering.eq_then]
    rcases lt_trichotomy whole whole' with less | rfl | more
    · rw [compare_lt_iff_lt.mpr less, compare_lt_iff_lt.mpr]
      exact mul_lt_mul_of_pos_right (by exact_mod_cast less) positive
    · rw [compare_eq_iff_eq.mpr rfl, compare_eq_iff_eq.mpr rfl]
    · rw [compare_gt_iff_gt.mpr more, compare_gt_iff_gt.mpr]
      exact mul_lt_mul_of_pos_right (by exact_mod_cast more) positive
  · rw [compare_gt_iff_gt.mpr more, compare_gt_iff_gt.mpr (finiteLess filled' filled normal' normal more)]
    rfl


theorem compareNegated (x y : ℚ) : compare (-x) (-y) = (compare x y).swap := by
  rcases lt_trichotomy x y with less | rfl | more
  · rw [compare_lt_iff_lt.mpr less, compare_gt_iff_gt.mpr (neg_lt_neg less)]
    rfl
  · rw [compare_eq_iff_eq.mpr rfl, compare_eq_iff_eq.mpr rfl]
    rfl
  · rw [compare_gt_iff_gt.mpr more, compare_lt_iff_lt.mpr (neg_lt_neg more)]
    rfl

theorem standsOrder {top top' : Int} {x y : ℚ} {u v : UnpackedFloat} (left : Stands top x u)
    (right : Stands top' y v) : u.compare v = some (compare x y) := by
  have above {n : Nat} (filled : 0 < n) (e : Int) : 0 < (n : ℚ) * 2 ^ e :=
    mul_pos (Nat.cast_pos.mpr filled) (zpow_pos two_pos e)
  have positive (n : Nat) : ((Sign.positive.apply n : Int) : ℚ) = n := rfl
  have negative (n : Nat) (e : Int) :
      ((Sign.negative.apply n : Int) : ℚ) * 2 ^ e = -((n : ℚ) * 2 ^ e) := by
    rw [Sign.apply, Int.cast_neg, Int.cast_natCast, neg_mul]
  -- of different signs the signs decide, of one sign the magnitudes do
  cases left with
  | zero s =>
      cases right with
      | zero s' => cases s <;> rfl
      | finite s' whole' e' filled' normal' _ _ =>
          cases s' with
          | positive =>
              rw [positive, compare_lt_iff_lt.mpr (above filled' e')]
              rfl
          | negative =>
              rw [negative, compare_gt_iff_gt.mpr (neg_neg_of_pos (above filled' e'))]
              rfl
  | finite s whole e filled normal _ _ =>
      cases right with
      | zero s' =>
          cases s with
          | positive =>
              rw [positive, compare_gt_iff_gt.mpr (above filled e)]
              rfl
          | negative =>
              rw [negative, compare_lt_iff_lt.mpr (neg_neg_of_pos (above filled e))]
              rfl
      | finite s' whole' e' filled' normal' _ _ =>
          have order := @finiteOrder whole whole' e e' filled filled' normal normal'
          have apart : -((whole : ℚ) * 2 ^ e) < whole' * 2 ^ e' :=
            lt_trans (neg_neg_of_pos (above filled e)) (above filled' e')
          have apart' : -((whole' : ℚ) * 2 ^ e') < whole * 2 ^ e :=
            lt_trans (neg_neg_of_pos (above filled' e')) (above filled e)
          cases s <;> cases s'
          · rw [negative, negative, compareNegated, ← order]
            rfl
          · rw [negative, positive, compare_lt_iff_lt.mpr apart]
            rfl
          · rw [positive, negative, compare_gt_iff_gt.mpr apart']
            rfl
          · rw [positive, positive, ← order]
            rfl

theorem compareCast (m n : Int) : compare (m : ℚ) n = compare m n := by
  rcases lt_trichotomy m n with less | rfl | more
  · rw [compare_lt_iff_lt.mpr less, compare_lt_iff_lt.mpr (Int.cast_lt.mpr less)]
  · rw [compare_eq_iff_eq.mpr rfl, compare_eq_iff_eq.mpr rfl]
  · rw [compare_gt_iff_gt.mpr more, compare_gt_iff_gt.mpr (Int.cast_lt.mpr more)]

/- Two doubles are ordered as the numbers that they stand for. -/
theorem floatOrder {top : Int} {x y : Float} {m n : Int} (left : Stands top m x.toModel.unpack)
    (right : Stands top n y.toModel.unpack) :
    Operation.floatOrder? x y = some (compare m n) := by
  have order := standsOrder left right
  have back := standsOrder right left
  rw [compareCast] at order back
  have less : x < y ↔ compare m n = .lt := by
    change decide ((UnpackedFloat.compare _ _ == some .lt) = true) = true ↔ _
    rw [order]
    simp
  have more : y < x ↔ compare n m = .lt := by
    change decide ((UnpackedFloat.compare _ _ == some .lt) = true) = true ↔ _
    rw [back]
    simp
  have same : (x == y) = true ↔ compare m n = .eq := by
    change (UnpackedFloat.compare _ _ == some .eq) = true ↔ _
    rw [order]
    simp
  unfold Operation.floatOrder?
  simp only [less, same, more]
  rcases lt_trichotomy m n with below | rfl | above
  · rw [compare_lt_iff_lt.mpr below]
    rfl
  · rw [compare_eq_iff_eq.mpr rfl]
    rfl
  · rw [compare_gt_iff_gt.mpr above, compare_lt_iff_lt.mpr above]
    rfl

end DocBlocks.Double
