import Formula.Numeric.Integer

set_option autoImplicit false

namespace Formula.Integer

variable {s : Signedness}

theorem ext_value (a b : Integer s) (same : a.value = b.value) : a = b := by
  cases a
  cases b
  simp_all

theorem checked_ok (n : Int) (result : Integer s) (computed : checked s n = .ok result) : result.value = n := by
  unfold checked ofInt? at computed
  split at computed
  · rename_i found inside
    split at inside
    · obtain rfl := Option.some.inj inside
      obtain rfl := Except.ok.inj computed
      rfl
    · exact absurd inside (by simp)
  · exact absurd computed (by simp)

theorem divide_ok (a b result : Integer s) (computed : divide a b = .ok result) :
    b.value ≠ 0 ∧ result.value = a.value.tdiv b.value := by
  unfold divide at computed
  split at computed
  · exact absurd computed (by simp)
  · rename_i nonzero
    exact ⟨nonzero, checked_ok _ result computed⟩

theorem remainder_ok (a b result : Integer s) (computed : remainder a b = .ok result) :
    b.value ≠ 0 ∧ result.value = a.value.tmod b.value := by
  unfold remainder at computed
  cases quotient : divide a b with
  | error error => simp [quotient, bind, Except.bind] at computed
  | ok value =>
      rw [quotient] at computed
      exact ⟨(divide_ok a b value quotient).1, checked_ok _ result computed⟩

theorem of_bits_to_bits (a : Integer s) : ofBits s a.toBits = a := by
  apply ext_value
  have low := a.low_le
  have high := a.le_high
  cases s with
  | signed =>
      simp only [Signedness.low, Signedness.high] at low high
      exact BitVec.toInt_ofInt_eq_self (by decide) (by omega) (by omega)
  | unsigned =>
      simp only [Signedness.low, Signedness.high] at low high
      simp only [ofBits, toBits, BitVec.toNat_ofInt]
      omega

theorem to_bits_of_bits (bits : BitVec 64) : (ofBits s bits).toBits = bits := by
  cases s with
  | signed => simp [ofBits, toBits]
  | unsigned => simp [ofBits, toBits]

theorem zero_value : (ofBits s 0).value = 0 := by cases s <;> rfl

theorem one_value : (ofBits s 1).value = 1 := by cases s <;> rfl

theorem is_zero (a : Integer s) : Numeric.isZero a = true ↔ a = ofBits s 0 := by
  simp [Numeric.isZero, Numeric.equal, Numeric.zero]

theorem is_one (a : Integer s) : Numeric.isOne a = true ↔ a = ofBits s 1 := by
  simp [Numeric.isOne, Numeric.equal, Numeric.one]

theorem is_zero_value (a : Integer s) : Numeric.isZero a = true ↔ a.value = 0 := by
  rw [is_zero]
  exact ⟨fun same => same ▸ zero_value, fun same => ext_value a _ (same.trans zero_value.symm)⟩

theorem is_minus_one (a : Integer s) (minus : Numeric.isMinusOne a = true) : a.value = -1 := by
  unfold Numeric.isMinusOne at minus
  split at minus
  · exact absurd minus (by simp)
  · rename_i m found
    have same : a = m := by simpa [Numeric.equal] using minus
    subst same
    have inside : ofInt? s (-1) = some a := found
    unfold ofInt? at inside
    split at inside
    · obtain rfl := Option.some.inj inside
      rfl
    · exact absurd inside (by simp)

end Formula.Integer
