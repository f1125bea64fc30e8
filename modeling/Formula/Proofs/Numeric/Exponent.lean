import Formula.Numeric.Decimal

set_option autoImplicit false

namespace Formula.Decimal

def Narrow (n : Int) : Prop := leastExponent ≤ n ∧ n < -leastExponent

instance (n : Int) : Decidable (Narrow n) := inferInstanceAs (Decidable (_ ∧ _))

-- The exponents that are let through.
def Passes (n : Int) : Prop := n.natAbs ≤ maxExponent ∨ n = leastExponent

instance (n : Int) : Decidable (Passes n) := inferInstanceAs (Decidable (_ ∨ _))

theorem narrow_iff (n : Int) : Narrow n ↔ Int32.minValue.toInt ≤ n ∧ n ≤ Int32.maxValue.toInt := by
  have low : Int32.minValue.toInt = leastExponent := by decide
  have high : Int32.maxValue.toInt = -leastExponent - 1 := by decide
  rw [Narrow, low, high]
  omega

theorem narrow_some (n : Int) (narrow : Narrow n) : ∃ exponent, narrow? n = some exponent ∧ exponent.toInt = n :=
  ⟨_, dif_pos ((narrow_iff n).mp narrow), Int32.toInt_ofIntLE⟩

theorem narrow_none (n : Int) (wide : ¬ Narrow n) : narrow? n = none := dif_neg (mt (narrow_iff n).mpr wide)

theorem passes_narrow (n : Int) (passes : Passes n) : Narrow n := by
  simp only [Passes, Narrow, leastExponent, maxExponent] at passes ⊢
  omega

theorem abs_magnitude (exponent : Int32) (other : exponent ≠ Int32.minValue) :
    exponent.abs.toInt = exponent.toInt.natAbs := by
  have pattern : exponent.toBitVec ≠ BitVec.intMin 32 := fun same => other (Int32.toBitVec_inj.mp same)
  have abs : exponent.abs.toInt = if exponent.toBitVec.msb then -exponent.toInt else exponent.toInt :=
    BitVec.toInt_abs_eq_ite.trans (if_neg pattern)
  have sign : exponent.toBitVec.msb = decide (exponent.toInt < 0) := BitVec.msb_eq_toInt
  rw [abs, sign]
  by_cases negative : exponent.toInt < 0
  · rw [decide_eq_true negative, if_pos rfl, Int.ofNat_natAbs_of_nonpos (Int.le_of_lt negative)]
  · rw [decide_eq_false negative, if_neg Bool.false_ne_true, Int.natAbs_of_nonneg (Int.not_lt.mp negative)]

theorem abs_passes (exponent : Int32) : exponent.abs.toInt ≤ maxExponent ↔ Passes exponent.toInt := by
  by_cases least : exponent = Int32.minValue
  · subst least
    decide
  · have other : exponent.toInt ≠ leastExponent := fun same => least (Int32.toInt_inj.mp (same.trans (by decide)))
    rw [abs_magnitude exponent least, Passes, or_iff_left other]
    exact Int.ofNat_le

theorem limited_some (n : Int) (passes : Passes n) : ∃ exponent, limited? n = some exponent ∧ exponent.toInt = n := by
  obtain ⟨exponent, narrow, rfl⟩ := narrow_some n (passes_narrow n passes)
  refine ⟨exponent, ?_, rfl⟩
  rw [limited?, narrow, Option.filter_some, if_pos]
  exact decide_eq_true ((abs_passes exponent).mpr passes)

theorem limited_none (n : Int) (refused : ¬ Passes n) : limited? n = none := by
  rw [limited?]
  by_cases narrow : Narrow n
  · obtain ⟨exponent, taken, rfl⟩ := narrow_some n narrow
    rw [taken, Option.filter_some, if_neg]
    exact fun passed => refused ((abs_passes exponent).mp (of_decide_eq_true passed))
  · rw [narrow_none n narrow, Option.filter_none]

end Formula.Decimal
