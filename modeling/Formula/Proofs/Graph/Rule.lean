import Formula.Graph.Rewrite
import Formula.Proofs.Graph.Table

set_option autoImplicit false

namespace Formula

variable {T σ : Type}

def Run.outcome {α : Type} (action : Run σ α) (state : σ) : Except EvalError α := (action.run.run state).1

def Run.after {α : Type} (action : Run σ α) (state : σ) : σ := (action.run.run state).2

inductive Borrowed (T σ : Type) where
  | routine (function : Routine T σ)
  | member (source : Member T σ)

namespace Borrowed

def identical : Borrowed T σ → Borrowed T σ → Bool
  | .routine a, .routine b => a.identical b
  | .member a, .member b => a.identical b
  | _, _ => false

def use : Borrowed T σ → List T → Run σ T
  | .routine function, args => function.call args
  | .member source, _ => source.read

def isEarly : Borrowed T σ → Bool
  | .routine function => function.isFoldable
  | .member source => source.isReadOnly

def Settled (borrowed : Borrowed T σ) : Prop :=
  ∀ args before now, (borrowed.use args).outcome before = (borrowed.use args).outcome now

end Borrowed

def Shape.borrowed? {ι : Type} : Shape T σ ι → Option (Borrowed T σ)
  | .call routine _ _ => some (.routine routine)
  | .member source => some (.member source)
  | _ => none

theorem Shape.borrowed_map {ι κ : Type} (f : ι → κ) (shape : Shape T σ ι) :
    (shape.map f).borrowed? = shape.borrowed? := by
  cases shape <;> rfl

namespace Rewrite

-- What takes the place of an operation on a constant and an operand that is none.
inductive Effect where
  | operand
  | constant
  | negated

def Effect.place (effect : Effect) (operand constant : Nat) (span : Span) : Replacement T σ :=
  match effect with
  | .operand => .existing operand
  | .constant => .existing constant
  | .negated => .fresh (.unary .negate operand span)

variable [Numeric T]

inductive LeftIdentity (value : T) : BinaryOperator → Effect → Prop
  | zeroOperand (op : BinaryOperator) (zero : Numeric.isZero value = true) (known : op ∈ [.add, .bitOr, .bitXor]) :
      LeftIdentity value op .operand
  | zeroConstant (op : BinaryOperator) (zero : Numeric.isZero value = true)
      (known : op ∈ [.mul, .bitAnd, .shl, .shr]) : LeftIdentity value op .constant
  | zeroNegated (zero : Numeric.isZero value = true) : LeftIdentity value .sub .negated
  | one (one : Numeric.isOne value = true) : LeftIdentity value .mul .operand
  | minusOne (signed : Numeric.signed T = true) (minusOne : Numeric.isMinusOne value = true) :
      LeftIdentity value .mul .negated

inductive RightIdentity (value : T) (op : BinaryOperator) : Effect → Prop
  | zeroOperand (zero : Numeric.isZero value = true) (known : op ∈ [.add, .sub, .bitOr, .bitXor, .shl, .shr]) :
      RightIdentity value op .operand
  | zeroConstant (zero : Numeric.isZero value = true) (known : op ∈ [.mul, .bitAnd]) :
      RightIdentity value op .constant
  | one (nonzero : Numeric.isZero value = false) (one : Numeric.isOne value = true) (known : op ∈ [.mul, .div]) :
      RightIdentity value op .operand
  | minusOne (nonzero : Numeric.isZero value = false) (signed : Numeric.signed T = true)
      (minusOne : Numeric.isMinusOne value = true) (known : op ∈ [.mul, .div]) : RightIdentity value op .negated

-- A node over a table gives way to its replacement while the host is in a state.
inductive Rule (cells : Cells T σ) (host : σ) : Shape T σ Nat → Replacement T σ → Prop
  | unary (op : UnaryOperator) (operand : Nat) (span : Span) (a value : T)
      (known : cells.constantAt? operand = some a) (computed : Numeric.unary op a = .ok value) :
      Rule cells host (.unary op operand span) (.fresh (.constant value none))
  | binary (op : BinaryOperator) (left right : Nat) (span : Span) (a b value : T)
      (leftKnown : cells.constantAt? left = some a) (rightKnown : cells.constantAt? right = some b)
      (computed : Numeric.binary op a b = .ok value) :
      Rule cells host (.binary op left right span) (.fresh (.constant value none))
  | left (op : BinaryOperator) (left right : Nat) (span : Span) (a : T) (effect : Effect)
      (leftKnown : cells.constantAt? left = some a) (rightOpen : cells.constantAt? right = none)
      (identity : LeftIdentity a op effect) :
      Rule cells host (.binary op left right span) (effect.place right left span)
  | right (op : BinaryOperator) (left right : Nat) (span : Span) (b : T) (effect : Effect)
      (leftOpen : cells.constantAt? left = none) (rightKnown : cells.constantAt? right = some b)
      (identity : RightIdentity b op effect) :
      Rule cells host (.binary op left right span) (effect.place left right span)
  | noop (conversion : Conversion) (operand : Nat) (span : Span) (noop : conversion.isNoop T = true) :
      Rule cells host (.convert conversion operand span) (.existing operand)
  | convert (conversion : Conversion) (operand : Nat) (span : Span) (a value : T)
      (known : cells.constantAt? operand = some a) (computed : conversion.apply a = .ok value) :
      Rule cells host (.convert conversion operand span) (.fresh (.constant value none))
  | call (routine : Routine T σ) (args : List Nat) (span : Span) (values : List T) (value : T)
      (foldable : routine.isFoldable = true) (known : constants? cells args = some values)
      (computed : (routine.call values).outcome host = .ok value) :
      Rule cells host (.call routine args span) (.fresh (.constant value none))
  | member (source : Member T σ) (value : T) (readOnly : source.isReadOnly = true)
      (computed : source.read.outcome host = .ok value) :
      Rule cells host (.member source) (.fresh (.constant value none))
  | conditional (condition accepted rejected : Nat) (a : T) (known : cells.constantAt? condition = some a) :
      Rule cells host (.conditional condition accepted rejected)
        (.existing (if Numeric.isTruthy a then accepted else rejected))

def decided (cells : Cells T σ) (shape : Shape T σ Nat) (host : σ) : Option (Replacement T σ) :=
  ((rewrite? cells shape).run host).1

theorem left_identity_holds (op : BinaryOperator) (value : T) (left right : Nat) (span : Span)
    (replacement : Replacement T σ) (found : leftIdentity? op value left right span = some replacement) :
    ∃ effect, LeftIdentity value op effect ∧ replacement = effect.place right left span := by
  unfold leftIdentity? at found
  split at found
  · rename_i zero
    cases op <;> simp only [Option.some.injEq, reduceCtorEq] at found <;> subst found
    case add => exact ⟨.operand, .zeroOperand .add zero (by simp), rfl⟩
    case bitOr => exact ⟨.operand, .zeroOperand .bitOr zero (by simp), rfl⟩
    case bitXor => exact ⟨.operand, .zeroOperand .bitXor zero (by simp), rfl⟩
    case mul => exact ⟨.constant, .zeroConstant .mul zero (by simp), rfl⟩
    case bitAnd => exact ⟨.constant, .zeroConstant .bitAnd zero (by simp), rfl⟩
    case shl => exact ⟨.constant, .zeroConstant .shl zero (by simp), rfl⟩
    case shr => exact ⟨.constant, .zeroConstant .shr zero (by simp), rfl⟩
    case sub => exact ⟨.negated, .zeroNegated zero, rfl⟩
  · split at found
    · rename_i one
      simp only [Bool.and_eq_true, decide_eq_true_eq] at one
      obtain ⟨one, rfl⟩ := one
      obtain rfl := Option.some.inj found
      exact ⟨.operand, .one one, rfl⟩
    · split at found
      · rename_i minusOne
        simp only [Bool.and_eq_true, decide_eq_true_eq] at minusOne
        obtain ⟨⟨signed, minusOne⟩, rfl⟩ := minusOne
        obtain rfl := Option.some.inj found
        exact ⟨.negated, .minusOne signed minusOne, rfl⟩
      · exact absurd found (by simp)

theorem left_identity_found (op : BinaryOperator) (value : T) (left right : Nat) (span : Span) (effect : Effect)
    (identity : LeftIdentity value op effect) :
    (leftIdentity? op value left right span : Option (Replacement T σ)).isSome = true := by
  unfold leftIdentity?
  cases identity with
  | zeroOperand _ zero known =>
      simp only [List.mem_cons, List.not_mem_nil, or_false] at known
      rcases known with rfl | rfl | rfl <;> simp [zero]
  | zeroConstant _ zero known =>
      simp only [List.mem_cons, List.not_mem_nil, or_false] at known
      rcases known with rfl | rfl | rfl | rfl <;> simp [zero]
  | zeroNegated zero => simp [zero]
  | one one => by_cases zero : Numeric.isZero value = true <;> simp [zero, one]
  | minusOne signed minusOne =>
      by_cases zero : Numeric.isZero value = true <;> by_cases one : Numeric.isOne value = true <;>
        simp [zero, one, signed, minusOne]

theorem right_identity_holds (op : BinaryOperator) (value : T) (left right : Nat) (span : Span)
    (replacement : Replacement T σ) (found : rightIdentity? op value left right span = some replacement) :
    ∃ effect, RightIdentity value op effect ∧ replacement = effect.place left right span := by
  unfold rightIdentity? at found
  split at found
  · rename_i zero
    cases op <;> simp only [Option.some.injEq, reduceCtorEq] at found <;> subst found
    case add => exact ⟨.operand, .zeroOperand zero (by simp), rfl⟩
    case sub => exact ⟨.operand, .zeroOperand zero (by simp), rfl⟩
    case bitOr => exact ⟨.operand, .zeroOperand zero (by simp), rfl⟩
    case bitXor => exact ⟨.operand, .zeroOperand zero (by simp), rfl⟩
    case shl => exact ⟨.operand, .zeroOperand zero (by simp), rfl⟩
    case shr => exact ⟨.operand, .zeroOperand zero (by simp), rfl⟩
    case mul => exact ⟨.constant, .zeroConstant zero (by simp), rfl⟩
    case bitAnd => exact ⟨.constant, .zeroConstant zero (by simp), rfl⟩
  · rename_i nonzero
    rw [Bool.not_eq_true] at nonzero
    split at found
    · rename_i one
      simp only [Bool.and_eq_true, Bool.or_eq_true, decide_eq_true_eq] at one
      obtain rfl := Option.some.inj found
      exact ⟨.operand, .one nonzero one.1 (by simpa using one.2), rfl⟩
    · split at found
      · rename_i minusOne
        simp only [Bool.and_eq_true, Bool.or_eq_true, decide_eq_true_eq] at minusOne
        obtain rfl := Option.some.inj found
        exact ⟨.negated, .minusOne nonzero minusOne.1.1 minusOne.1.2 (by simpa using minusOne.2), rfl⟩
      · exact absurd found (by simp)

theorem right_identity_found (op : BinaryOperator) (value : T) (left right : Nat) (span : Span) (effect : Effect)
    (identity : RightIdentity value op effect) :
    (rightIdentity? op value left right span : Option (Replacement T σ)).isSome = true := by
  unfold rightIdentity?
  cases identity with
  | zeroOperand zero known =>
      simp only [List.mem_cons, List.not_mem_nil, or_false] at known
      rcases known with rfl | rfl | rfl | rfl | rfl | rfl <;> simp [zero]
  | zeroConstant zero known =>
      simp only [List.mem_cons, List.not_mem_nil, or_false] at known
      rcases known with rfl | rfl <;> simp [zero]
  | one nonzero one known =>
      simp only [List.mem_cons, List.not_mem_nil, or_false] at known
      rcases known with rfl | rfl <;> simp [nonzero, one]
  | minusOne nonzero signed minusOne known =>
      simp only [List.mem_cons, List.not_mem_nil, or_false] at known
      rcases known with rfl | rfl <;> by_cases one : Numeric.isOne value = true <;>
        simp [nonzero, one, signed, minusOne]

omit [Numeric T] in
theorem folded_value (outcome : Except EvalError T) (replacement : Replacement T σ)
    (found : folded? outcome = some replacement) :
    ∃ value, outcome = .ok value ∧ replacement = .fresh (.constant value none) := by
  cases outcome with
  | error error => simp [folded?] at found
  | ok value => exact ⟨value, rfl, (Option.some.inj found).symm⟩

omit [Numeric T] in
theorem folding_outcome (action : Run σ T) (host : σ) :
    ((folding action).run host).1 = (folded? (action.outcome host) : Option (Replacement T σ)) := rfl

theorem decided_rule (cells : Cells T σ) (host : σ) (shape : Shape T σ Nat) (replacement : Replacement T σ)
    (found : decided cells shape host = some replacement) : Rule cells host shape replacement := by
  unfold decided rewrite? at found
  cases shape with
  | constant value name => exact absurd found (by simp)
  | parameter index => exact absurd found (by simp)
  | member source =>
      simp only at found
      split at found
      · rename_i readOnly
        rw [folding_outcome] at found
        obtain ⟨value, computed, rfl⟩ := folded_value _ replacement found
        exact .member source value readOnly computed
      · exact absurd found (by simp)
  | unary op operand span =>
      simp only at found
      split at found
      · rename_i a known
        obtain ⟨value, computed, rfl⟩ := folded_value _ replacement found
        exact .unary op operand span a value known computed
      · exact absurd found (by simp)
  | binary op left right span =>
      simp only at found
      split at found
      · rename_i a b leftKnown rightKnown
        obtain ⟨value, computed, rfl⟩ := folded_value _ replacement found
        exact .binary op left right span a b value leftKnown rightKnown computed
      · rename_i a leftKnown rightOpen
        obtain ⟨effect, identity, rfl⟩ := left_identity_holds op a left right span replacement found
        exact .left op left right span a effect leftKnown rightOpen identity
      · rename_i b leftOpen rightKnown
        obtain ⟨effect, identity, rfl⟩ := right_identity_holds op b left right span replacement found
        exact .right op left right span b effect leftOpen rightKnown identity
      · exact absurd found (by simp)
  | convert conversion operand span =>
      simp only at found
      split at found
      · rename_i noop
        obtain rfl := Option.some.inj found
        exact .noop conversion operand span noop
      · split at found
        · rename_i a known
          obtain ⟨value, computed, rfl⟩ := folded_value _ replacement found
          exact .convert conversion operand span a value known computed
        · exact absurd found (by simp)
  | call routine args span =>
      simp only at found
      split at found
      · rename_i foldable
        split at found
        · rename_i values known
          rw [folding_outcome] at found
          obtain ⟨value, computed, rfl⟩ := folded_value _ replacement found
          exact .call routine args span values value foldable known computed
        · exact absurd found (by simp)
      · exact absurd found (by simp)
  | conditional condition accepted rejected =>
      simp only at found
      split at found
      · rename_i a known
        obtain rfl := Option.some.inj found
        exact .conditional condition accepted rejected a known
      · exact absurd found (by simp)

theorem rule_decided (cells : Cells T σ) (host : σ) (shape : Shape T σ Nat) (replacement : Replacement T σ)
    (rule : Rule cells host shape replacement) : (decided cells shape host).isSome = true := by
  unfold decided rewrite?
  cases rule with
  | unary op operand span a value known computed =>
      simp only [known, computed]
      rfl
  | binary op left right span a b value leftKnown rightKnown computed =>
      simp only [leftKnown, rightKnown, computed]
      rfl
  | left op left right span a effect leftKnown rightOpen identity =>
      simp only [leftKnown, rightOpen]
      exact left_identity_found op a left right span effect identity
  | right op left right span b effect leftOpen rightKnown identity =>
      simp only [leftOpen, rightKnown]
      exact right_identity_found op b left right span effect identity
  | noop conversion operand span noop =>
      simp only [noop, if_true]
      rfl
  | convert conversion operand span a value known computed =>
      by_cases noop : conversion.isNoop T = true
      · simp only [noop, if_true]
        rfl
      · simp only [noop, Bool.false_eq_true, if_false, known, computed]
        rfl
  | call routine args span values value foldable known computed =>
      simp only [foldable, known, if_true]
      rw [folding_outcome, computed]
      rfl
  | member source value readOnly computed =>
      simp only [readOnly, if_true]
      rw [folding_outcome, computed]
      rfl
  | conditional condition accepted rejected a known =>
      simp only [known]
      rfl

end Rewrite

end Formula
