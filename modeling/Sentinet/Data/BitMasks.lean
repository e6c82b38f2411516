import Mathlib.Data.Nat.Bitwise

namespace Sentinet.Data.BitMasks

/-! Which values a mask leaves as they are, and which survive being cut to fewer bits. -/

variable {n k : Nat} {x : BitVec n}

/-- The lowest `k` bits. -/
def low (n k : Nat) : BitVec n := BitVec.ofNat n (2 ^ k - 1)

theorem low_toNat (bound : k ≤ n) : (low n k).toNat = 2 ^ k - 1 := by
  have positive : 0 < 2 ^ k := Nat.two_pow_pos k
  have power : 2 ^ k ≤ 2 ^ n := Nat.pow_le_pow_right (by decide) bound
  rw [low, BitVec.toNat_ofNat, Nat.mod_eq_of_lt (by omega)]

theorem and_low_eq_iff (bound : k ≤ n) : x &&& low n k = x ↔ x.toNat < 2 ^ k := by
  rw [← BitVec.toNat_inj, BitVec.toNat_and, low_toNat bound, Nat.and_two_pow_sub_one_eq_mod]
  exact Nat.mod_eq_iff_lt (Nat.two_pow_pos k).ne'

theorem or_high_eq_iff (bound : k ≤ n) : x ||| ~~~low n k = x ↔ 2 ^ n - 2 ^ k ≤ x.toNat := by
  have flipped : x ||| ~~~low n k = x ↔ ~~~x &&& low n k = ~~~x := by
    rw [← BitVec.not_inj, BitVec.not_or, BitVec.not_not]
  have range := x.isLt
  have power : 2 ^ k ≤ 2 ^ n := Nat.pow_le_pow_right (by decide) bound
  rw [flipped, and_low_eq_iff bound, BitVec.toNat_not]
  omega

/-- The values that a mask of high ones leaves are the small negative ones. -/
theorem or_high_eq_iff_toInt (bound : k < n) :
    x ||| ~~~low n k = x ↔ -2 ^ k ≤ x.toInt ∧ x.toInt < 0 := by
  have range := x.isLt
  have power : 2 ^ k * 2 ≤ 2 ^ n := by
    rw [← Nat.pow_succ]
    exact Nat.pow_le_pow_right (by decide) bound
  have cast : (2 : Int) ^ k = ((2 ^ k : Nat) : Int) := (Int.natCast_pow 2 k).symm
  rw [or_high_eq_iff (Nat.le_of_lt bound), BitVec.toInt_eq_toNat_cond, cast]
  generalize 2 ^ k = part at power
  generalize 2 ^ n = whole at range power
  split <;> omega

theorem or_twoPow_eq_iff (bound : k < n) : x ||| BitVec.twoPow n k = x ↔ x.getLsbD k = true := by
  constructor
  · intro same
    rw [← same, BitVec.getLsbD_or, BitVec.getLsbD_twoPow]
    simp [bound]
  · intro set
    apply BitVec.eq_of_getLsbD_eq
    intro i inside
    rw [BitVec.getLsbD_or, BitVec.getLsbD_twoPow]
    by_cases same : k = i
    · simp [← same, set]
    · simp [same]

theorem setWidth_eq_iff (bound : k ≤ n) : (x.setWidth k).setWidth n = x ↔ x.toNat < 2 ^ k := by
  have range := x.isLt
  have power : 2 ^ k ≤ 2 ^ n := Nat.pow_le_pow_right (by decide) bound
  have positive : 0 < 2 ^ k := Nat.two_pow_pos k
  have small : x.toNat % 2 ^ k < 2 ^ n := Nat.lt_of_lt_of_le (Nat.mod_lt _ positive) power
  rw [← BitVec.toNat_inj, BitVec.toNat_setWidth, BitVec.toNat_setWidth, Nat.mod_eq_of_lt small]
  exact Nat.mod_eq_iff_lt positive.ne'

theorem signExtend_eq_iff (bound : k + 1 ≤ n) :
    (x.setWidth (k + 1)).signExtend n = x ↔ -2 ^ k ≤ x.toInt ∧ x.toInt < 2 ^ k := by
  have cast : (2 : Int) ^ k = ((2 ^ k : Nat) : Int) := (Int.natCast_pow 2 k).symm
  have double : 2 ^ (k + 1) = 2 ^ k * 2 := Nat.pow_succ 2 k
  have positive : 0 < 2 ^ k := Nat.two_pow_pos k
  rw [← BitVec.toInt_inj, BitVec.toInt_signExtend_of_le bound,
    ← BitVec.signExtend_eq_setWidth_of_le x bound, BitVec.toInt_signExtend_eq_toInt_bmod_of_le x bound,
    double, cast]
  generalize 2 ^ k = half at positive
  constructor
  · intro same
    have lower := Int.le_bmod (x := x.toInt) (m := half * 2) (by omega)
    have upper := Int.bmod_lt (x := x.toInt) (m := half * 2) (by omega)
    omega
  · intro range
    exact Int.bmod_eq_of_le_mul_two (by omega) (by omega)

end Sentinet.Data.BitMasks
