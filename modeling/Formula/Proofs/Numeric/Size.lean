import Formula.Numeric.Decimal
import Mathlib.Algebra.Field.Rat
import Mathlib.Data.Rat.Lemmas
import Mathlib.Data.Nat.Prime.Basic

set_option autoImplicit false

namespace Formula.Decimal

theorem power_zpow (x : Rat) (exponent : Int) : power x exponent = x ^ exponent := by
  rw [power]
  split
  · rename_i negative
    obtain ⟨n, rfl⟩ : ∃ n : Nat, exponent = -n := ⟨exponent.natAbs, by omega⟩
    simp
  · rename_i natural
    obtain ⟨n, rfl⟩ := Int.eq_ofNat_of_zero_le (Int.not_lt.mp natural)
    simp

def Fits (bits : Nat) (x : Rat) : Prop := x.num.natAbs < 2 ^ bits ∧ x.den < 2 ^ bits

instance (bits : Nat) (x : Rat) : Decidable (Fits bits x) := inferInstanceAs (Decidable (_ ∧ _))

theorem bit_length_le (n bits : Nat) : bitLength n ≤ bits ↔ n < 2 ^ bits := by
  rw [bitLength]
  split
  · rename_i zero
    rw [zero]
    exact iff_of_true (Nat.zero_le _) (Nat.two_pow_pos _)
  · rename_i some
    rw [Nat.succ_le_iff, Nat.log2_lt some]

theorem magnitude_bits_le (x : Rat) (bits : Nat) : magnitudeBits x ≤ bits ↔ Fits bits x := by
  rw [magnitudeBits, Nat.max_le, bit_length_le, bit_length_le, Fits]

theorem fits_own (x : Rat) : Fits (magnitudeBits x) x := (magnitude_bits_le x _).mp (Nat.le_refl _)

theorem fits_mono (x : Rat) (fewer more : Nat) (le : fewer ≤ more) (fits : Fits fewer x) : Fits more x :=
  (magnitude_bits_le x more).mp (Nat.le_trans ((magnitude_bits_le x fewer).mpr fits) le)

theorem fits_positive (x : Rat) (bits : Nat) (fits : Fits bits x) : 0 < bits := by
  rcases Nat.eq_zero_or_pos bits with rfl | positive
  · exact absurd fits.2 (Nat.not_lt.mpr x.den_pos)
  · exact positive

theorem magnitude_bits_pos (x : Rat) : 0 < magnitudeBits x := fits_positive x _ (fits_own x)

section Powers

variable (x : Rat) (bits : Nat)

theorem fits_inv (some : x ≠ 0) : Fits bits x⁻¹ ↔ Fits bits x := by
  have sign : x.num.sign.natAbs = 1 := Int.natAbs_sign_of_ne_zero (Rat.num_ne_zero.mpr some)
  rw [Fits, Fits, Rat.num_inv, Rat.den_inv_of_ne_zero some, Int.natAbs_mul, sign, Nat.one_mul, Int.natAbs_natCast]
  exact and_comm

theorem fits_pow (n : Nat) (raised : n ≠ 0) : Fits (bits * n) (x ^ n) ↔ Fits bits x := by
  rw [Fits, Fits, Rat.num_pow, Rat.den_pow, Int.natAbs_pow, Nat.pow_mul, Nat.pow_lt_pow_iff_left raised,
    Nat.pow_lt_pow_iff_left raised]

theorem fits_zpow (n : Int) (raised : n ≠ 0) (defined : ¬ (n < 0 ∧ x = 0)) :
    Fits (bits * n.natAbs) (x ^ n) ↔ Fits bits x := by
  obtain ⟨size, rfl | rfl⟩ := n.eq_nat_or_neg
  · rw [zpow_natCast, Int.natAbs_natCast]
    exact fits_pow x bits size (by omega)
  · have some : x ≠ 0 := fun zero => defined ⟨by omega, zero⟩
    rw [zpow_neg, zpow_natCast, ← inv_pow, Int.natAbs_neg, Int.natAbs_natCast, fits_pow _ bits size (by omega),
      fits_inv x bits some]

end Powers

section Shifts

theorem two_pow_parts (n : Nat) : ((2 : Rat) ^ n).num.natAbs = 2 ^ n ∧ ((2 : Rat) ^ n).den = 1 := by
  simp [Rat.num_pow, Rat.den_pow, Int.natAbs_pow]

theorem fits_two_pow (n bits : Nat) : Fits bits ((2 : Rat) ^ n) ↔ n < bits := by
  obtain ⟨num, den⟩ := two_pow_parts n
  rw [Fits, num, den, Nat.pow_lt_pow_iff_right (by decide)]
  exact and_iff_left_of_imp fun below => Nat.one_lt_two_pow (by omega)

theorem magnitude_two_pow (n : Nat) : magnitudeBits ((2 : Rat) ^ n) = n + 1 := by
  have enough := (magnitude_bits_le _ (n + 1)).mpr ((fits_two_pow n _).mpr (Nat.lt_succ_self n))
  have fewer := mt (magnitude_bits_le _ n).mp (mt (fits_two_pow n n).mp (Nat.lt_irrefl n))
  omega

theorem two_zpow_parts (n : Int) :
    ((2 : Rat) ^ n).num.natAbs ≤ 2 ^ n.natAbs ∧ ((2 : Rat) ^ n).den ≤ 2 ^ n.natAbs := by
  obtain ⟨size, rfl | rfl⟩ := n.eq_nat_or_neg
  · obtain ⟨num, den⟩ := two_pow_parts size
    rw [zpow_natCast, Int.natAbs_natCast, num, den]
    exact ⟨Nat.le_refl _, Nat.one_le_two_pow⟩
  · obtain ⟨num, den⟩ := two_pow_parts size
    have some : (2 : Rat) ^ size ≠ 0 := pow_ne_zero _ (by decide)
    have sign : ((2 : Rat) ^ size).num.sign.natAbs = 1 := Int.natAbs_sign_of_ne_zero (Rat.num_ne_zero.mpr some)
    rw [zpow_neg, zpow_natCast, Int.natAbs_neg, Int.natAbs_natCast, Rat.num_inv, Rat.den_inv_of_ne_zero some, num, den,
      Int.natAbs_mul, sign]
    exact ⟨Nat.one_le_two_pow, Nat.le_refl _⟩

theorem mul_parts (x y : Rat) : (x * y).num.natAbs ≤ x.num.natAbs * y.num.natAbs ∧ (x * y).den ≤ x.den * y.den := by
  constructor
  · rw [Rat.num_mul, ← Int.natAbs_mul]
    exact Int.natAbs_ediv_le_natAbs _ _
  · exact Nat.le_of_dvd (Nat.mul_pos x.den_pos y.den_pos) (Rat.mul_den_dvd x y)

variable (x : Rat) (n : Int) (bits : Nat)

theorem fits_shift (fits : Fits bits x) : Fits (bits + n.natAbs) (x * 2 ^ n) := by
  obtain ⟨num, den⟩ := mul_parts x (2 ^ n)
  obtain ⟨above, below⟩ := two_zpow_parts n
  rw [Fits, Nat.pow_add]
  constructor
  · calc (x * 2 ^ n).num.natAbs
      _ ≤ x.num.natAbs * ((2 : Rat) ^ n).num.natAbs := num
      _ ≤ x.num.natAbs * 2 ^ n.natAbs := Nat.mul_le_mul_left _ above
      _ < 2 ^ bits * 2 ^ n.natAbs := Nat.mul_lt_mul_of_pos_right fits.1 (Nat.two_pow_pos _)
  · calc (x * 2 ^ n).den
      _ ≤ x.den * ((2 : Rat) ^ n).den := den
      _ ≤ x.den * 2 ^ n.natAbs := Nat.mul_le_mul_left _ below
      _ < 2 ^ bits * 2 ^ n.natAbs := Nat.mul_lt_mul_of_pos_right fits.2 (Nat.two_pow_pos _)

theorem fits_shifted (fits : Fits bits (x * 2 ^ n)) : Fits (bits + n.natAbs) x := by
  have back := fits_shift (x * 2 ^ n) (-n) bits fits
  rwa [mul_assoc, ← zpow_add₀ (by decide), add_neg_cancel, zpow_zero, mul_one, Int.natAbs_neg] at back

theorem div_two_zpow : x / 2 ^ n = x * 2 ^ (-n) := by rw [zpow_neg, div_eq_mul_inv]

end Shifts

section Outward

-- A shift away from one that cancels nothing.
def Outward (x : Rat) (n : Int) : Prop :=
  (0 ≤ n ∧ Odd x.den ∧ x.den ≤ x.num.natAbs) ∨ (n ≤ 0 ∧ Odd x.num.natAbs ∧ x.num.natAbs ≤ x.den)

variable (x : Rat) (bits : Nat)

theorem odd_shift (size : Nat) (odd : Odd x.den) :
    (x * 2 ^ size).num.natAbs = x.num.natAbs * 2 ^ size ∧ (x * 2 ^ size).den = x.den := by
  obtain ⟨num, den⟩ := two_pow_parts size
  have coprime : ((x.num * ((2 : Rat) ^ size).num).natAbs).gcd (x.den * ((2 : Rat) ^ size).den) = 1 := by
    rw [Int.natAbs_mul, num, den, Nat.mul_one]
    exact Nat.Coprime.mul_left x.reduced (Nat.Coprime.pow_left size (Nat.coprime_two_left.mpr odd))
  rw [Rat.num_mul, Rat.den_mul, coprime, Int.natCast_one, Int.ediv_one, Int.natAbs_mul, num, den, Nat.mul_one, Nat.div_one]
  exact ⟨rfl, rfl⟩

theorem fits_odd (size : Nat) (odd : Odd x.den) (outside : x.den ≤ x.num.natAbs) :
    Fits (bits + size) (x * 2 ^ size) ↔ Fits bits x := by
  obtain ⟨num, den⟩ := odd_shift x size odd
  have above : x.num.natAbs * 2 ^ size < 2 ^ (bits + size) ↔ x.num.natAbs < 2 ^ bits := by
    rw [Nat.pow_add, Nat.mul_lt_mul_right (Nat.two_pow_pos _)]
  have wider : 2 ^ bits ≤ 2 ^ (bits + size) := Nat.pow_le_pow_right (by decide) (Nat.le_add_right _ _)
  rw [Fits, Fits, num, den, above]
  constructor
  · rintro ⟨fits, -⟩
    exact ⟨fits, Nat.lt_of_le_of_lt outside fits⟩
  · rintro ⟨fits, below⟩
    exact ⟨fits, Nat.lt_of_lt_of_le below wider⟩

theorem fits_outward (n : Int) (outward : Outward x n) : Fits (bits + n.natAbs) (x * 2 ^ n) ↔ Fits bits x := by
  rcases outward with ⟨natural, odd, outside⟩ | ⟨negative, odd, inside⟩
  · obtain ⟨size, rfl⟩ := Int.eq_ofNat_of_zero_le natural
    exact fits_odd x bits size odd outside
  · obtain ⟨size, rfl⟩ : ∃ size : Nat, n = -size := ⟨n.natAbs, by omega⟩
    have some : x ≠ 0 := by
      rintro rfl
      exact absurd odd (by decide)
    have sign : x.num.sign.natAbs = 1 := Int.natAbs_sign_of_ne_zero (Rat.num_ne_zero.mpr some)
    have shifted : x * 2 ^ (-(size : Int)) = (x⁻¹ * 2 ^ size)⁻¹ := by
      rw [mul_inv, inv_inv, zpow_neg, zpow_natCast]
    have moved : x⁻¹ * 2 ^ size ≠ 0 := mul_ne_zero (inv_ne_zero some) (pow_ne_zero _ (by decide))
    rw [Int.natAbs_neg, Int.natAbs_natCast, shifted, fits_inv _ _ moved, fits_odd, fits_inv x bits some]
    · rwa [Rat.den_inv_of_ne_zero some]
    · rwa [Rat.den_inv_of_ne_zero some, Rat.num_inv, Int.natAbs_mul, sign, Nat.one_mul, Int.natAbs_natCast]

end Outward

end Formula.Decimal
