import Formula.Proofs.Numeric.Exponent
import Formula.Proofs.Numeric.Size

set_option autoImplicit false

namespace Formula.Decimal

def oversized (op : BinaryOperator) : EvalError := .domain s!"result of '{op.symbol}' would exceed {maxResultBits} bits"

theorem check_bits (bits : Nat) (op : BinaryOperator) :
    checkBits bits op = if maxResultBits < bits then .error (oversized op) else .ok () := rfl

example : oversized .pow = .domain "result of '^' would exceed 1048576 bits" := by decide

section Exponents

variable (op : BinaryOperator)

theorem exponent_taken (n : Int) (passes : Passes n) : integralExponent n op = .ok n := by
  obtain ⟨exponent, taken, rfl⟩ := limited_some n passes
  rw [integralExponent, Rat.den_intCast, if_neg (not_not.mpr rfl), Rat.num_intCast, taken]

theorem exponent_refused (y : Rat) (other : ¬ ∃ n : Int, y = n ∧ Passes n) :
    ∃ details, integralExponent y op = .error (.domain details) := by
  rw [integralExponent]
  split
  · exact ⟨_, rfl⟩
  · rename_i whole
    have exactly : (y.num : Rat) = y := Rat.coe_int_num_of_den_eq_one (not_not.mp whole)
    rw [limited_none y.num fun passes => other ⟨y.num, exactly.symm, passes⟩]
    exact ⟨_, rfl⟩

-- What wraps is far beyond the limit on the size of a result.
theorem passes_bounded (n : Int) (passes : Passes n) (small : n.natAbs ≤ maxResultBits) : n.natAbs ≤ maxExponent := by
  simp only [Passes, leastExponent, maxExponent, maxResultBits] at passes small ⊢
  omega

end Exponents

section Powers

variable (x : Rat)

theorem power_checked (n : Int) (passes : Passes n) : checkedPower x n =
    if n < 0 ∧ x = 0 then .error .divisionByZero
    else if maxResultBits < magnitudeBits x * n.natAbs then .error (oversized .pow)
    else .ok (x ^ n) := by
  rw [checkedPower, exponent_taken .pow n passes]
  simp only [bind, Except.bind, check_bits, power_zpow]
  by_cases large : maxResultBits < magnitudeBits x * n.natAbs
  · simp only [if_pos large]
    rfl
  · simp only [if_neg large]
    rfl

theorem power_named (y : Rat) (outcome : Except EvalError Rat) (computed : checkedPower x y = outcome)
    (other : ∀ details, outcome ≠ .error (.domain details)) : ∃ n : Int, y = n ∧ Passes n := by
  by_contra unnamed
  obtain ⟨details, refused⟩ := exponent_refused .pow y unnamed
  exact other details (by rw [← computed, checkedPower, refused]; rfl)

theorem power_ok (y r : Rat) : checkedPower x y = .ok r ↔ ∃ n : Int, y = n ∧ n.natAbs ≤ maxExponent ∧
    ¬ (n < 0 ∧ x = 0) ∧ magnitudeBits x * n.natAbs ≤ maxResultBits ∧ r = x ^ n := by
  constructor
  · intro computed
    obtain ⟨n, rfl, passes⟩ := power_named x y _ computed (by simp)
    rw [power_checked x n passes] at computed
    split at computed
    · cases computed
    · rename_i defined
      split at computed
      · cases computed
      · rename_i large
        have fits := Nat.not_lt.mp large
        have small := (Nat.le_mul_of_pos_left n.natAbs (magnitude_bits_pos x)).trans fits
        exact ⟨n, rfl, passes_bounded n passes small, defined, fits, (Except.ok.inj computed).symm⟩
  · rintro ⟨n, rfl, bounded, defined, fits, rfl⟩
    rw [power_checked x n (.inl bounded), if_neg defined, if_neg (Nat.not_lt.mpr fits)]

theorem power_undefined (y : Rat) (other : y ≠ leastExponent) : checkedPower x y = .error .divisionByZero ↔
    x = 0 ∧ ∃ n : Int, y = n ∧ n < 0 ∧ n.natAbs ≤ maxExponent := by
  constructor
  · intro computed
    obtain ⟨n, rfl, passes⟩ := power_named x y _ computed (by simp)
    have bounded := passes.resolve_right fun least => other (congrArg _ least)
    rw [power_checked x n passes] at computed
    split at computed
    · rename_i undefined
      exact ⟨undefined.2, n, rfl, undefined.1, bounded⟩
    · split at computed <;> cases computed
  · rintro ⟨rfl, n, rfl, negative, bounded⟩
    rw [power_checked 0 n (.inl bounded), if_pos ⟨negative, rfl⟩]

theorem power_fits (n : Int) (defined : ¬ (n < 0 ∧ x = 0)) (fits : magnitudeBits x * n.natAbs ≤ maxResultBits) :
    Fits maxResultBits (x ^ n) := by
  by_cases raised : n = 0
  · rw [raised, zpow_zero]
    exact fits_mono 1 1 maxResultBits (by decide) ⟨by decide, by decide⟩
  · exact fits_mono _ _ _ fits ((fits_zpow x _ n raised defined).mpr (fits_own x))

end Powers

section Shifts

variable (x : Rat) (op : BinaryOperator)

theorem shift_checked (n : Int) (passes : Passes n) : checkedShift op x n =
    if maxResultBits < magnitudeBits x + n.natAbs then .error (oversized op) else .ok n := by
  rw [checkedShift, exponent_taken op n passes]
  simp only [bind, Except.bind, check_bits]
  by_cases large : maxResultBits < magnitudeBits x + n.natAbs
  · simp only [if_pos large]
  · simp only [if_neg large]
    rfl

theorem shift_ok (y : Rat) (n : Int) : checkedShift op x y = .ok n ↔
    y = n ∧ n.natAbs ≤ maxExponent ∧ magnitudeBits x + n.natAbs ≤ maxResultBits := by
  constructor
  · intro computed
    by_cases named : ∃ m : Int, y = m ∧ Passes m
    · obtain ⟨m, rfl, passes⟩ := named
      rw [shift_checked x op m passes] at computed
      split at computed
      · cases computed
      · rename_i large
        obtain rfl := Except.ok.inj computed
        have fits := Nat.not_lt.mp large
        exact ⟨rfl, passes_bounded m passes ((Nat.le_add_left _ _).trans fits), fits⟩
    · obtain ⟨details, refused⟩ := exponent_refused op y named
      rw [checkedShift, refused] at computed
      cases computed
  · rintro ⟨rfl, bounded, fits⟩
    rw [shift_checked x op n (.inl bounded), if_neg (Nat.not_lt.mpr fits)]

theorem shift_fits (n : Int) (fits : magnitudeBits x + n.natAbs ≤ maxResultBits) : Fits maxResultBits (x * 2 ^ n) :=
  fits_mono _ _ _ fits (fits_shift x n _ (fits_own x))

theorem shifted_ok (move : Rat → Rat) (y r : Rat) : (checkedShift op x y).map (fun n => move (power 2 n)) = .ok r ↔
    ∃ n : Int, y = n ∧ n.natAbs ≤ maxExponent ∧ magnitudeBits x + n.natAbs ≤ maxResultBits ∧ r = move (2 ^ n) := by
  constructor
  · intro computed
    cases checked : checkedShift op x y with
    | error error =>
        rw [checked] at computed
        cases computed
    | ok n =>
        obtain ⟨named, bounded, fits⟩ := (shift_ok x op y n).mp checked
        rw [checked, Except.map, power_zpow] at computed
        exact ⟨n, named, bounded, fits, (Except.ok.inj computed).symm⟩
  · rintro ⟨n, named, bounded, fits, rfl⟩
    rw [(shift_ok x op y n).mpr ⟨named, bounded, fits⟩, Except.map, power_zpow]

theorem left_ok (y r : Rat) : binary .shl x y = .ok r ↔ ∃ n : Int, y = n ∧ n.natAbs ≤ maxExponent ∧
    magnitudeBits x + n.natAbs ≤ maxResultBits ∧ r = x * 2 ^ n :=
  shifted_ok x .shl (x * ·) y r

theorem right_ok (y r : Rat) : binary .shr x y = .ok r ↔ ∃ n : Int, y = n ∧ n.natAbs ≤ maxExponent ∧
    magnitudeBits x + n.natAbs ≤ maxResultBits ∧ r = x / 2 ^ n :=
  shifted_ok x .shr (x / ·) y r

theorem right_left (y r : Rat) : binary .shr x y = .ok r ↔ binary .shl x (-y) = .ok r := by
  rw [right_ok, left_ok]
  constructor
  · rintro ⟨n, rfl, bounded, fits, rfl⟩
    exact ⟨-n, by rw [Int.cast_neg], by rwa [Int.natAbs_neg], by rwa [Int.natAbs_neg], div_two_zpow x n⟩
  · rintro ⟨n, named, bounded, fits, rfl⟩
    refine ⟨-n, by rw [Int.cast_neg, ← named, neg_neg], by rwa [Int.natAbs_neg], by rwa [Int.natAbs_neg], ?_⟩
    rw [div_two_zpow, neg_neg]

end Shifts

theorem result_fits (x y r : Rat) (op : BinaryOperator) (known : op ∈ [.pow, .shl, .shr])
    (computed : binary op x y = .ok r) : Fits maxResultBits r := by
  simp only [List.mem_cons, List.not_mem_nil, or_false] at known
  rcases known with rfl | rfl | rfl
  · obtain ⟨n, -, -, defined, fits, rfl⟩ := (power_ok x y r).mp computed
    exact power_fits x n defined fits
  · obtain ⟨n, -, -, fits, rfl⟩ := (left_ok x y r).mp computed
    exact shift_fits x n fits
  · obtain ⟨n, -, -, fits, rfl⟩ := (right_ok x y r).mp computed
    rw [div_two_zpow]
    exact shift_fits x (-n) (by rwa [Int.natAbs_neg])

theorem exponent_reported (x y : Rat) (op : BinaryOperator) (known : op ∈ [.pow, .shl, .shr]) (other : y ≠ leastExponent)
    (unbounded : ¬ ∃ n : Int, y = n ∧ n.natAbs ≤ maxExponent) : ∃ details, binary op x y = .error (.domain details) := by
  have refused (op : BinaryOperator) : ∃ details, integralExponent y op = .error (.domain details) := by
    refine exponent_refused op y ?_
    rintro ⟨n, rfl, bounded | least⟩
    · exact unbounded ⟨n, rfl, bounded⟩
    · exact other (congrArg _ least)
  simp only [List.mem_cons, List.not_mem_nil, or_false] at known
  rcases known with rfl | rfl | rfl
  · obtain ⟨details, refused⟩ := refused .pow
    exact ⟨details, by rw [binary, checkedPower, refused]; rfl⟩
  · obtain ⟨details, refused⟩ := refused .shl
    exact ⟨details, by rw [binary, checkedShift, refused]; rfl⟩
  · obtain ⟨details, refused⟩ := refused .shr
    exact ⟨details, by rw [binary, checkedShift, refused]; rfl⟩

-- Powers and shifts are exact where the exponent is whole and not too large and the estimate is within the limit, and
-- are nothing elsewhere; what they give is within the limit as well.
theorem powers_shifts_bounded (x y r : Rat) :
    (binary .pow x y = .ok r ↔ ∃ n : Int, y = n ∧ n.natAbs ≤ maxExponent ∧ ¬ (n < 0 ∧ x = 0) ∧
      magnitudeBits x * n.natAbs ≤ maxResultBits ∧ r = x ^ n) ∧
    (binary .shl x y = .ok r ↔ ∃ n : Int, y = n ∧ n.natAbs ≤ maxExponent ∧
      magnitudeBits x + n.natAbs ≤ maxResultBits ∧ r = x * 2 ^ n) ∧
    (binary .shr x y = .ok r ↔ ∃ n : Int, y = n ∧ n.natAbs ≤ maxExponent ∧
      magnitudeBits x + n.natAbs ≤ maxResultBits ∧ r = x / 2 ^ n) ∧
    (∀ op ∈ [BinaryOperator.pow, .shl, .shr], binary op x y = .ok r → Fits maxResultBits r) ∧
    (y ≠ leastExponent →
      (binary .pow x y = .error .divisionByZero ↔ x = 0 ∧ ∃ n : Int, y = n ∧ n < 0 ∧ n.natAbs ≤ maxExponent) ∧
      ((¬ ∃ n : Int, y = n ∧ n.natAbs ≤ maxExponent) → ∀ op ∈ [BinaryOperator.pow, .shl, .shr],
        ∃ details, binary op x y = .error (.domain details))) ∧
    (binary .shr x y = .ok r ↔ binary .shl x (-y) = .ok r) := by
  refine ⟨power_ok x y r, left_ok x y r, right_ok x y r, result_fits x y r, fun other => ?_, right_left x y r⟩
  exact ⟨power_undefined x y other, fun unbounded op known => exponent_reported x y op known other unbounded⟩

theorem three_halves_bounded :
    (binary .pow (3 / 2) (-2) = .ok (4 / 9) ∧ Fits maxResultBits (4 / 9)) ∧
    (binary .shl (3 / 2) (-2) = .ok (3 / 8) ∧ Fits maxResultBits (3 / 8)) ∧
    (binary .shr (3 / 2) (-2) = .ok 6 ∧ Fits maxResultBits 6) ∧
    binary .pow 0 (-2) = .error .divisionByZero ∧
    ∃ details, binary .pow 0 (-(1 / 2)) = .error (.domain details) := by
  have power : binary .pow (3 / 2) (-2) = .ok (4 / 9) := by decide +kernel
  have left : binary .shl (3 / 2) (-2) = .ok (3 / 8) := by decide +kernel
  have right : binary .shr (3 / 2) (-2) = .ok 6 := by decide +kernel
  obtain ⟨-, -, -, powers, -⟩ := powers_shifts_bounded (3 / 2) (-2) (4 / 9)
  obtain ⟨-, -, -, lefts, -⟩ := powers_shifts_bounded (3 / 2) (-2) (3 / 8)
  obtain ⟨-, -, -, rights, -⟩ := powers_shifts_bounded (3 / 2) (-2) 6
  obtain ⟨-, -, -, -, reciprocal, -⟩ := powers_shifts_bounded 0 (-2) 0
  obtain ⟨-, -, -, -, root, -⟩ := powers_shifts_bounded 0 (-(1 / 2)) 0
  have fraction : ¬ ∃ n : Int, (-(1 / 2) : Rat) = n ∧ n.natAbs ≤ maxExponent := by
    rintro ⟨n, half, -⟩
    exact absurd (congrArg Rat.den half) (by rw [Rat.den_intCast]; decide +kernel)
  refine ⟨⟨power, powers .pow (by decide) power⟩, ⟨left, lefts .shl (by decide) left⟩,
    ⟨right, rights .shr (by decide) right⟩, ?_, ?_⟩
  · exact (reciprocal (by decide +kernel)).1.mpr ⟨rfl, -2, by decide +kernel, by decide, by decide⟩
  · exact (root (by decide +kernel)).2 fraction .pow (by decide)

-- The size of the exponent is looked at before the base.
theorem large_exponent_first : binary .pow 0 (-4097) = .error (.domain "exponent -4097 of '^' is too large") ∧
    binary .pow 0 (-4097) ≠ .error .divisionByZero := by decide

section Refusals

variable (x : Rat) (n : Int)

theorem power_oversized (bounded : n.natAbs ≤ maxExponent) (defined : ¬ (n < 0 ∧ x = 0)) :
    binary .pow x n = .error (oversized .pow) ↔ maxResultBits < magnitudeBits x * n.natAbs := by
  rw [binary, power_checked x n (.inl bounded), if_neg defined]
  by_cases large : maxResultBits < magnitudeBits x * n.natAbs <;> simp [large]

theorem shifted_oversized (op : BinaryOperator) (bounded : n.natAbs ≤ maxExponent) (move : Rat → Rat) :
    (checkedShift op x n).map (fun n => move (power 2 n)) = .error (oversized op) ↔
      maxResultBits < magnitudeBits x + n.natAbs := by
  rw [shift_checked x op n (.inl bounded)]
  by_cases large : maxResultBits < magnitudeBits x + n.natAbs <;> simp [large, Except.map]

theorem left_oversized (bounded : n.natAbs ≤ maxExponent) :
    binary .shl x n = .error (oversized .shl) ↔ maxResultBits < magnitudeBits x + n.natAbs :=
  shifted_oversized x n .shl bounded (x * ·)

theorem right_oversized (bounded : n.natAbs ≤ maxExponent) :
    binary .shr x n = .error (oversized .shr) ↔ maxResultBits < magnitudeBits x + n.natAbs :=
  shifted_oversized x n .shr bounded (x / ·)

theorem power_large (defined : ¬ (n < 0 ∧ x = 0)) (large : maxResultBits < magnitudeBits x * n.natAbs) :
    ¬ Fits (maxResultBits + 1 - n.natAbs) (x ^ n) := by
  intro fits
  have raised : n ≠ 0 := by
    rintro rfl
    exact absurd large (by simp)
  have some := magnitude_bits_pos x
  have fewer : maxResultBits + 1 - n.natAbs ≤ (magnitudeBits x - 1) * n.natAbs := by
    rw [Nat.sub_mul, Nat.one_mul]
    exact Nat.sub_le_sub_right large _
  have smaller := (fits_zpow x _ n raised defined).mp (fits_mono _ _ _ fewer fits)
  have below := (magnitude_bits_le x _).mpr smaller
  omega

theorem shift_large (bounded : n.natAbs ≤ maxExponent) (large : maxResultBits < magnitudeBits x + n.natAbs) :
    ¬ Fits (maxResultBits - 2 * n.natAbs) (x * 2 ^ n) := by
  intro fits
  have below := (magnitude_bits_le x _).mpr (fits_shifted x n _ fits)
  have room : 2 * maxExponent ≤ maxResultBits := by decide
  omega

theorem shift_outward (bounded : n.natAbs ≤ maxExponent) (outward : Outward x n) :
    maxResultBits < magnitudeBits x + n.natAbs ↔ ¬ Fits maxResultBits (x * 2 ^ n) := by
  have room : maxExponent ≤ maxResultBits := by decide
  have split : maxResultBits = maxResultBits - n.natAbs + n.natAbs := by omega
  have exactly := fits_outward x (maxResultBits - n.natAbs) n outward
  rw [← split, ← magnitude_bits_le x] at exactly
  rw [exactly]
  omega

end Refusals

theorem two_pow_raised (size : Nat) (n : Int) (bounded : n.natAbs ≤ maxExponent)
    (large : maxResultBits < (size + 1) * n.natAbs) : binary .pow (2 ^ size) n = .error (oversized .pow) := by
  have some : (2 : Rat) ^ size ≠ 0 := pow_ne_zero _ (by decide)
  rwa [power_oversized _ n bounded fun undefined => some undefined.2, magnitude_two_pow]

-- The size that is refused is that of the estimate. Of what is refused, a power is short of the limit by less than its
-- exponent, and a shift by less than twice as much, if at all; a shift away from one that cancels nothing is refused
-- only where its result is too large.
theorem refusals_large (x : Rat) (n : Int) (bounded : n.natAbs ≤ maxExponent) :
    (¬ (n < 0 ∧ x = 0) →
      (binary .pow x n = .error (oversized .pow) ↔ maxResultBits < magnitudeBits x * n.natAbs) ∧
      (binary .pow x n = .error (oversized .pow) → ¬ Fits (maxResultBits + 1 - n.natAbs) (x ^ n))) ∧
    (binary .shl x n = .error (oversized .shl) ↔ maxResultBits < magnitudeBits x + n.natAbs) ∧
    (binary .shl x n = .error (oversized .shl) → ¬ Fits (maxResultBits - 2 * n.natAbs) (x * 2 ^ n)) ∧
    (Outward x n → (binary .shl x n = .error (oversized .shl) ↔ ¬ Fits maxResultBits (x * 2 ^ n))) ∧
    (binary .shr x n = .error (oversized .shr) ↔ maxResultBits < magnitudeBits x + n.natAbs) ∧
    (binary .shr x n = .error (oversized .shr) → ¬ Fits (maxResultBits - 2 * n.natAbs) (x / 2 ^ n)) ∧
    (Outward x (-n) → (binary .shr x n = .error (oversized .shr) ↔ ¬ Fits maxResultBits (x / 2 ^ n))) := by
  have back : (-n).natAbs = n.natAbs := n.natAbs_neg
  rw [left_oversized x n bounded, right_oversized x n bounded, div_two_zpow]
  refine ⟨fun defined => ?_, Iff.rfl, shift_large x n bounded, shift_outward x n bounded, Iff.rfl, ?_, ?_⟩
  · rw [power_oversized x n bounded defined]
    exact ⟨Iff.rfl, power_large x n defined⟩
  · have large := shift_large x (-n)
    rw [back] at large
    exact large bounded
  · have outward := shift_outward x (-n)
    rw [back] at outward
    exact outward bounded

theorem two_pow_moved (size : Nat) (large : maxResultBits ≤ size + 1) :
    binary .shl (2 ^ size) (1 : Int) = .error (oversized .shl) ∧
      binary .shr (2 ^ size) (1 : Int) = .error (oversized .shr) := by
  rw [left_oversized _ 1 (by decide), right_oversized _ 1 (by decide), magnitude_two_pow]
  exact ⟨Nat.lt_succ_of_le large, Nat.lt_succ_of_le large⟩

theorem two_pow_outward (size : Nat) (n : Nat) : Outward (2 ^ size) n := by
  obtain ⟨num, den⟩ := two_pow_parts size
  refine .inl ⟨Int.natCast_nonneg n, ?_, ?_⟩
  · rw [den]
    exact odd_one
  · rw [den, num]
    exact Nat.one_le_two_pow

theorem two_pows_refused :
    (binary .pow (2 ^ 257) (4096 : Int) = .error (oversized .pow) ∧
      ¬ Fits (maxResultBits + 1 - 4096) ((2 ^ 257) ^ (4096 : Int))) ∧
    (binary .shl (2 ^ 1048576) (1 : Int) = .error (oversized .shl) ∧
      ¬ Fits maxResultBits (2 ^ 1048576 * 2 ^ (1 : Int))) := by
  obtain ⟨power, -⟩ := refusals_large (2 ^ 257) 4096 (by decide)
  obtain ⟨-, -, -, outward, -⟩ := refusals_large (2 ^ 1048576) 1 (by decide)
  have raised := two_pow_raised 257 4096 (by decide) (by decide)
  obtain ⟨shifted, -⟩ := two_pow_moved 1048576 (by decide)
  exact ⟨⟨raised, (power fun undefined => absurd undefined.1 (by decide)).2 raised⟩, shifted,
    (outward (two_pow_outward 1048576 1)).mp shifted⟩

theorem two_pow_half (size : Nat) : (2 ^ (size + 1) / 2 : Rat) = 2 ^ size := by
  rw [pow_succ, mul_div_cancel_right₀ _ (by decide)]

theorem small_results_refused :
    (binary .pow (2 ^ 256) (4081 : Int) = .error (oversized .pow) ∧ Fits maxResultBits ((2 ^ 256) ^ 4081)) ∧
    (binary .shr (2 ^ 1048575) (1 : Int) = .error (oversized .shr) ∧ Fits maxResultBits (2 ^ 1048575 / 2)) := by
  refine ⟨⟨two_pow_raised 256 4081 (by decide) (by decide), ?_⟩, (two_pow_moved 1048575 (by decide)).2, ?_⟩
  · rw [← pow_mul, fits_two_pow]
    decide
  · rw [two_pow_half 1048574, fits_two_pow]
    decide

end Formula.Decimal
