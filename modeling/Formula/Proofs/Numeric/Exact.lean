import Formula.Numeric.Decimal
import Formula.Numeric.Float
import Formula.Proofs.Graph.Pass
import Formula.Proofs.Numeric.Guard
import Formula.Proofs.Numeric.Integer
import Mathlib.Algebra.Field.Rat

set_option autoImplicit false

namespace Formula

def Rewrite.Effect.Holds {T : Type} [Numeric T] (effect : Rewrite.Effect) (operand constant result : T) : Prop :=
  match effect with
  | .operand => operand = result
  | .constant => constant = result
  | .negated => Numeric.unary .negate operand = .ok result

class Exact (T : Type) [Numeric T] : Prop where
  same_iff : ∀ a b : T, Numeric.same a b = true ↔ a = b
  noop : Numeric.integral T = true → ∀ a : T, Numeric.truncate a = .ok a
  left : ∀ (value operand result : T) (op : BinaryOperator) (effect : Rewrite.Effect),
    Rewrite.LeftIdentity value op effect → Numeric.binary op value operand = .ok result →
      effect.Holds operand value result
  right : ∀ (value operand result : T) (op : BinaryOperator) (effect : Rewrite.Effect),
    Rewrite.RightIdentity value op effect → Numeric.binary op operand value = .ok result →
      effect.Holds operand value result

-- The types whose values are the same only when they are one, and whose idle conversions change none.
class Discerning (T : Type) [Numeric T] : Prop where
  same_iff : ∀ a b : T, Numeric.same a b = true ↔ a = b
  noop : ∀ (conversion : Conversion) (a : T), conversion.isNoop T = true → conversion.apply a = .ok a

instance {T : Type} [Numeric T] [Exact T] : Discerning T where
  same_iff := Exact.same_iff
  noop conversion a noop := by
    cases conversion with
    | identity => rfl
    | integral => exact Exact.noop noop a

instance : Discerning Float where
  same_iff a b := by
    refine decide_eq_true_iff.trans ⟨fun same => ?_, fun same => congrArg Float.toBits same⟩
    obtain ⟨⟨bits, valid⟩⟩ := a
    obtain ⟨⟨others, alsoValid⟩⟩ := b
    obtain rfl : bits = others := same
    rfl
  noop conversion a noop := by
    cases conversion with
    | identity => rfl
    | integral => exact absurd noop (by simp [Conversion.isNoop, Numeric.integral])

instance {T : Type} [Numeric T] [Discerning T] : SymmetricSame T where
  same_symm a b same := (Discerning.same_iff b a).mpr ((Discerning.same_iff a b).mp same).symm

namespace Integer

variable {s : Signedness}

theorem zero_bits : (ofBits s 0).toBits = 0#64 := to_bits_of_bits 0

theorem shift_count_zero : shiftCount (ofBits s 0) = 0 := by
  rw [shiftCount, zero_bits]
  rfl

theorem shift_right_zero (a : Integer s) : shiftRight a (ofBits s 0) = a := by
  have kept := of_bits_to_bits a
  cases s with
  | signed => rwa [shiftRight, shift_count_zero, BitVec.sshiftRight_zero]
  | unsigned => rwa [shiftRight, shift_count_zero, BitVec.ushiftRight_zero]

theorem zero_shift_right (a : Integer s) : shiftRight (ofBits s 0) a = ofBits s 0 := by
  cases s with
  | signed => rw [shiftRight, zero_bits, BitVec.zero_sshiftRight]; rfl
  | unsigned => rw [shiftRight, zero_bits, BitVec.zero_ushiftRight]; rfl

theorem zero_left (operand result : Integer s) (op : BinaryOperator)
    (computed : binary op (ofBits s 0) operand = .ok result) :
    (op ∈ [.add, .bitOr, .bitXor] → operand = result) ∧
      (op ∈ [.mul, .bitAnd, .shl, .shr] → ofBits s 0 = result) := by
  have kept := of_bits_to_bits operand
  cases op <;> simp only [List.mem_cons, List.not_mem_nil, reduceCtorEq, or_false, or_true, false_implies,
    true_implies, true_and, and_true, binary] at computed ⊢
  case add => exact ext_value _ _ (by rw [checked_ok _ result computed, zero_value, Int.zero_add])
  case mul => exact ext_value _ _ (by rw [checked_ok _ result computed, zero_value, Int.zero_mul])
  case bitOr =>
    rw [zero_bits, BitVec.zero_or, kept] at computed
    exact Except.ok.inj computed
  case bitXor =>
    rw [zero_bits, BitVec.zero_xor, kept] at computed
    exact Except.ok.inj computed
  case bitAnd =>
    rw [zero_bits, BitVec.zero_and] at computed
    exact Except.ok.inj computed
  case shl =>
    rw [zero_bits, BitVec.zero_shiftLeft] at computed
    exact Except.ok.inj computed
  case shr =>
    rw [zero_shift_right] at computed
    exact Except.ok.inj computed

theorem zero_right (operand result : Integer s) (op : BinaryOperator)
    (computed : binary op operand (ofBits s 0) = .ok result) :
    (op ∈ [.add, .sub, .bitOr, .bitXor, .shl, .shr] → operand = result) ∧
      (op ∈ [.mul, .bitAnd] → ofBits s 0 = result) := by
  have kept := of_bits_to_bits operand
  cases op <;> simp only [List.mem_cons, List.not_mem_nil, reduceCtorEq, or_false, or_true, false_implies,
    true_implies, true_and, and_true, binary] at computed ⊢
  case add => exact ext_value _ _ (by rw [checked_ok _ result computed, zero_value, Int.add_zero])
  case sub => exact ext_value _ _ (by rw [checked_ok _ result computed, zero_value, Int.sub_zero])
  case mul => exact ext_value _ _ (by rw [checked_ok _ result computed, zero_value, Int.mul_zero])
  case bitOr =>
    rw [zero_bits, BitVec.or_zero, kept] at computed
    exact Except.ok.inj computed
  case bitXor =>
    rw [zero_bits, BitVec.xor_zero, kept] at computed
    exact Except.ok.inj computed
  case bitAnd =>
    rw [zero_bits, BitVec.and_zero] at computed
    exact Except.ok.inj computed
  case shl =>
    rw [shift_count_zero, BitVec.shiftLeft_zero, kept] at computed
    exact Except.ok.inj computed
  case shr =>
    rw [shift_right_zero] at computed
    exact Except.ok.inj computed

theorem left_exact (value operand result : Integer s) (op : BinaryOperator) (effect : Rewrite.Effect)
    (identity : Rewrite.LeftIdentity value op effect) (computed : Numeric.binary op value operand = .ok result) :
    effect.Holds operand value result := by
  cases identity with
  | zeroOperand _ zero known =>
      obtain rfl := (is_zero value).mp zero
      exact (zero_left operand result op computed).1 known
  | zeroConstant _ zero known =>
      obtain rfl := (is_zero value).mp zero
      exact (zero_left operand result op computed).2 known
  | zeroNegated zero =>
      have nothing := (is_zero_value value).mp zero
      change checked s (value.value - operand.value) = .ok result at computed
      rwa [nothing, Int.zero_sub] at computed
  | one one =>
      obtain rfl := (is_one value).mp one
      exact ext_value _ _ (by rw [checked_ok _ result computed, one_value, Int.one_mul])
  | minusOne _ minus =>
      change checked s (value.value * operand.value) = .ok result at computed
      rwa [is_minus_one value minus, Int.neg_one_mul] at computed

theorem right_exact (value operand result : Integer s) (op : BinaryOperator) (effect : Rewrite.Effect)
    (identity : Rewrite.RightIdentity value op effect) (computed : Numeric.binary op operand value = .ok result) :
    effect.Holds operand value result := by
  cases identity with
  | zeroOperand zero known =>
      obtain rfl := (is_zero value).mp zero
      exact (zero_right operand result op computed).1 known
  | zeroConstant zero known =>
      obtain rfl := (is_zero value).mp zero
      exact (zero_right operand result op computed).2 known
  | one _ one known =>
      obtain rfl := (is_one value).mp one
      simp only [List.mem_cons, List.not_mem_nil, or_false] at known
      rcases known with rfl | rfl
      · exact ext_value _ _ (by rw [checked_ok _ result computed, one_value, Int.mul_one])
      · exact ext_value _ _ (by rw [(divide_ok _ _ result computed).2, one_value, Int.tdiv_one])
  | minusOne _ _ minus known =>
      have negative := is_minus_one value minus
      simp only [List.mem_cons, List.not_mem_nil, or_false] at known
      rcases known with rfl | rfl
      · change checked s (operand.value * value.value) = .ok result at computed
        rwa [negative, Int.mul_neg_one] at computed
      · change divide operand value = .ok result at computed
        rw [divide, negative, if_neg (by decide), Int.tdiv_neg, Int.tdiv_one] at computed
        exact computed

instance : Exact (Integer s) where
  same_iff a b := by simp [Numeric.same]
  noop _ a := rfl
  left := left_exact
  right := right_exact

end Integer

namespace Decimal

theorem is_zero (x : Rat) : Numeric.isZero x = true ↔ x = 0 := by
  simp [Numeric.isZero, Numeric.equal, Numeric.zero]

theorem is_one (x : Rat) : Numeric.isOne x = true ↔ x = 1 := by
  simp [Numeric.isOne, Numeric.equal, Numeric.one]

theorem is_minus_one (x : Rat) : Numeric.isMinusOne x = true ↔ x = -1 := by
  simp [Numeric.isMinusOne, Numeric.equal, Numeric.minusOne]

theorem zero_left (operand result : Rat) (op : BinaryOperator) (computed : binary op 0 operand = .ok result) :
    (op ∈ [.add, .bitOr, .bitXor] → operand = result) ∧ (op ∈ [.mul, .bitAnd, .shl, .shr] → 0 = result) := by
  cases op <;> simp only [List.mem_cons, List.not_mem_nil, reduceCtorEq, or_false, or_true, false_implies,
    true_implies, true_and, and_true, binary] at computed ⊢
  case add => rw [← Except.ok.inj computed, zero_add]
  case mul => rw [← Except.ok.inj computed, zero_mul]
  case shl =>
    obtain ⟨exponent, -, -, -, rfl⟩ := (left_ok 0 operand result).mp computed
    rw [zero_mul]
  case shr =>
    obtain ⟨exponent, -, -, -, rfl⟩ := (right_ok 0 operand result).mp computed
    rw [zero_div]

theorem zero_right (operand result : Rat) (op : BinaryOperator) (computed : binary op operand 0 = .ok result) :
    (op ∈ [.add, .sub, .bitOr, .bitXor, .shl, .shr] → operand = result) ∧ (op ∈ [.mul, .bitAnd] → 0 = result) := by
  cases op <;> simp only [List.mem_cons, List.not_mem_nil, reduceCtorEq, or_false, or_true, false_implies,
    true_implies, true_and, and_true, binary] at computed ⊢
  case add => rw [← Except.ok.inj computed, add_zero]
  case sub => rw [← Except.ok.inj computed, sub_zero]
  case mul => rw [← Except.ok.inj computed, mul_zero]
  case shl =>
    obtain ⟨exponent, zero, -, -, rfl⟩ := (left_ok operand 0 result).mp computed
    rw [Rat.intCast_eq_zero_iff.mp zero.symm, zpow_zero, mul_one]
  case shr =>
    obtain ⟨exponent, zero, -, -, rfl⟩ := (right_ok operand 0 result).mp computed
    rw [Rat.intCast_eq_zero_iff.mp zero.symm, zpow_zero, div_one]

theorem left_exact (value operand result : Rat) (op : BinaryOperator) (effect : Rewrite.Effect)
    (identity : Rewrite.LeftIdentity value op effect) (computed : Numeric.binary op value operand = .ok result) :
    effect.Holds operand value result := by
  cases identity with
  | zeroOperand _ zero known =>
      obtain rfl := (is_zero value).mp zero
      exact (zero_left operand result op computed).1 known
  | zeroConstant _ zero known =>
      obtain rfl := (is_zero value).mp zero
      exact (zero_left operand result op computed).2 known
  | zeroNegated zero =>
      obtain rfl := (is_zero value).mp zero
      change (Except.ok (0 - operand) : Except EvalError Rat) = .ok result at computed
      rwa [zero_sub] at computed
  | one one =>
      obtain rfl := (is_one value).mp one
      change (Except.ok (1 * operand) : Except EvalError Rat) = .ok result at computed
      rw [one_mul] at computed
      exact Except.ok.inj computed
  | minusOne _ minus =>
      obtain rfl := (is_minus_one value).mp minus
      change (Except.ok (-1 * operand) : Except EvalError Rat) = .ok result at computed
      rwa [neg_one_mul] at computed

theorem right_exact (value operand result : Rat) (op : BinaryOperator) (effect : Rewrite.Effect)
    (identity : Rewrite.RightIdentity value op effect) (computed : Numeric.binary op operand value = .ok result) :
    effect.Holds operand value result := by
  cases identity with
  | zeroOperand zero known =>
      obtain rfl := (is_zero value).mp zero
      exact (zero_right operand result op computed).1 known
  | zeroConstant zero known =>
      obtain rfl := (is_zero value).mp zero
      exact (zero_right operand result op computed).2 known
  | one _ one known =>
      obtain rfl := (is_one value).mp one
      simp only [List.mem_cons, List.not_mem_nil, or_false] at known
      rcases known with rfl | rfl
      · change (Except.ok (operand * 1) : Except EvalError Rat) = .ok result at computed
        rw [mul_one] at computed
        exact Except.ok.inj computed
      · change (Except.ok (operand / 1) : Except EvalError Rat) = .ok result at computed
        rw [div_one] at computed
        exact Except.ok.inj computed
  | minusOne _ _ minus known =>
      obtain rfl := (is_minus_one value).mp minus
      simp only [List.mem_cons, List.not_mem_nil, or_false] at known
      rcases known with rfl | rfl
      · change (Except.ok (operand * -1) : Except EvalError Rat) = .ok result at computed
        rwa [mul_neg_one] at computed
      · change (Except.ok (operand / -1) : Except EvalError Rat) = .ok result at computed
        rwa [div_neg, div_one] at computed

instance : Exact Rat where
  same_iff a b := by simp [Numeric.same]
  noop integral := absurd integral (by simp [Numeric.integral])
  left := left_exact
  right := right_exact

end Decimal

end Formula
