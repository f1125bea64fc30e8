import Formula.Numeric.Decimal
import Formula.Numeric.Float
import Formula.Numeric.Integer

set_option autoImplicit false

namespace Formula

def BinaryOperator.under (flags : Flags) : BinaryOperator → Bool
  | .add | .sub | .mul | .div | .rem => flags.numeric
  | .pow => flags.decimal
  | .shl | .shr => flags.decimal || flags.integer
  | .bitOr | .bitAnd | .bitXor => flags.integer

def UnaryOperator.under (flags : Flags) : UnaryOperator → Bool
  | .negate => flags.numeric
  | .complement => flags.integer

def EvalError.IsArithmetic : EvalError → Prop
  | divisionByZero | overflow | domain _ => True
  | _ => False

def Answers {α : Type} (outcome : Except EvalError α) : Prop := ∀ error, outcome = .error error → error.IsArithmetic

section

variable {α β : Type}

theorem answers_ok (value : α) : Answers (.ok value) := fun _ impossible => absurd impossible (by simp)

theorem answers_error (error : EvalError) (isArithmetic : error.IsArithmetic) :
    Answers (.error error : Except EvalError α) := by
  rintro _ ⟨⟩
  exact isArithmetic

theorem answers_bind (outcome : Except EvalError α) (next : α → Except EvalError β) (first : Answers outcome)
    (later : ∀ value, Answers (next value)) : Answers (outcome >>= next) := by
  cases outcome with
  | ok value => exact later value
  | error error => exact answers_error error (first error rfl)

theorem answers_map (outcome : Except EvalError α) (f : α → β) (first : Answers outcome) :
    Answers (outcome.map f) := by
  cases outcome with
  | ok value => exact answers_ok (f value)
  | error error => exact answers_error error (first error rfl)

end

class Dependable (T : Type) [Numeric T] : Prop where
  unary : ∀ (op : UnaryOperator) (a : T), op.under (Numeric.supported T) = true → Answers (Numeric.unary op a)
  binary : ∀ (op : BinaryOperator) (a b : T), op.under (Numeric.supported T) = true →
    Answers (Numeric.binary op a b)
  truncate : ∀ a : T, Answers (Numeric.truncate a)

namespace Integer

variable {s : Signedness}

theorem checked_answers (n : Int) : Answers (checked s n) := by
  unfold checked
  cases ofInt? s n with
  | none => exact answers_error _ trivial
  | some result => exact answers_ok result

theorem divide_answers (a b : Integer s) : Answers (divide a b) := by
  unfold divide
  split
  · exact answers_error _ trivial
  · exact checked_answers _

theorem remainder_answers (a b : Integer s) : Answers (remainder a b) :=
  answers_bind _ _ (divide_answers a b) fun _ => checked_answers _

instance : Dependable (Integer s) where
  unary op a _ := by
    cases op with
    | negate => exact checked_answers _
    | complement => exact answers_ok _
  binary op a b under := by
    cases op with
    | add | sub | mul => exact checked_answers _
    | div => exact divide_answers a b
    | rem => exact remainder_answers a b
    | pow => exact absurd under Bool.false_ne_true
    | shl | shr | bitOr | bitAnd | bitXor => exact answers_ok _
  truncate := answers_ok

end Integer

namespace Decimal

theorem exponent_answers (x : Rat) (op : BinaryOperator) : Answers (integralExponent x op) := by
  unfold integralExponent
  split
  · exact answers_error _ trivial
  · cases limited? x.num with
    | some exponent => exact answers_ok _
    | none => exact answers_error _ trivial

theorem bits_answers (bits : Nat) (op : BinaryOperator) : Answers (checkBits bits op) := by
  unfold checkBits
  split
  · exact answers_error _ trivial
  · exact answers_ok _

theorem shift_answers (op : BinaryOperator) (x y : Rat) : Answers (checkedShift op x y) :=
  answers_bind _ _ (exponent_answers y op) fun _ =>
    answers_bind _ _ (bits_answers _ op) fun _ => answers_ok _

theorem power_answers (x y : Rat) : Answers (checkedPower x y) := by
  refine answers_bind _ _ (exponent_answers y .pow) fun exponent => ?_
  by_cases undefined : exponent < 0 ∧ x = 0
  · simp only [undefined, and_self, if_true]
    exact answers_error _ trivial
  · simp only [undefined, if_false]
    exact answers_bind _ _ (bits_answers _ .pow) fun _ => answers_ok _

instance : Dependable Rat where
  unary op a under := by
    cases op with
    | negate => exact answers_ok _
    | complement => exact absurd under (by decide)
  binary op a b under := by
    cases op with
    | add | sub | mul => exact answers_ok _
    | div | rem =>
        simp only [Numeric.binary, binary]
        split
        · exact answers_error _ trivial
        · exact answers_ok _
    | pow => exact power_answers a b
    | shl | shr => exact answers_map _ _ (shift_answers _ a b)
    | bitOr | bitAnd | bitXor => exact absurd under (by decide)
  truncate a := answers_ok _

end Decimal

instance : Dependable Float where
  unary op a under := by
    cases op with
    | negate => exact answers_ok _
    | complement => exact absurd under (by decide)
  binary op a b under := by
    cases op with
    | add | sub | mul | div | rem | pow | shl | shr => exact answers_ok _
    | bitOr | bitAnd | bitXor => exact absurd under (by decide)
  truncate a := by
    change Answers (Binary64.checkedTruncate a)
    unfold Binary64.checkedTruncate
    split
    · exact answers_error _ trivial
    · exact answers_ok _

end Formula
