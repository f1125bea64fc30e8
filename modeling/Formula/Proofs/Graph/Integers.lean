import Formula.Proofs.Graph.Listing
import Formula.Proofs.Graph.Preserve

set_option autoImplicit false

namespace Formula

namespace Exactly

-- Division truncates and a remainder has the sign of its dividend; bits have no meaning here.
def binary (op : BinaryOperator) (a b : Int) : Option Int :=
  match op with
  | .add => some (a + b)
  | .sub => some (a - b)
  | .mul => some (a * b)
  | .div => if b = 0 then none else some (a.tdiv b)
  | .rem => if b = 0 then none else some (a.tmod b)
  | _ => none

def unary : UnaryOperator → Int → Option Int
  | .negate, a => some (-a)
  | .complement, _ => none

end Exactly

variable {s : Signedness} {σ : Type}

-- What an expression means over all integers; nothing is known of the host.
def Meaning.exact (inputs : List (Integer s)) : Meaning (Integer s) σ Int where
  constant value := value.value
  parameter index := inputs[index]?.map Integer.value
  use _ _ := none
  unary := Exactly.unary
  binary := Exactly.binary
  convert _ a := some a
  truthy a := a ≠ 0

-- Literals, inputs, `+ - * / %`, the two signs, `trunc` and `if`.
def Shape.isArithmetic {ι : Type} : Shape (Integer s) σ ι → Bool
  | .constant _ name => name.isNone
  | .parameter _ | .convert _ _ _ | .conditional _ _ _ => true
  | .unary op _ _ => op = .negate
  | .binary op _ _ _ => op ∈ [.add, .sub, .mul, .div, .rem]
  | .member _ | .call _ _ _ => false

def Expr.Arithmetic (e : Expr (Integer s) σ) : Prop := e.Every fun shape => shape.isArithmetic = true

def Expr.whole? (inputs : List (Integer s)) (e : Expr (Integer s) σ) : Option Int :=
  e.fold (Meaning.exact inputs).layer

namespace Exactly

theorem unary_computed (op : UnaryOperator) (a value : Integer s) (computed : Numeric.unary op a = .ok value) :
    Refines (unary op a.value) (some value.value) := by
  cases op with
  | negate => exact refines_of_eq _ _ (congrArg some (Integer.checked_ok _ value computed).symm)
  | complement => exact refines_none _

theorem binary_computed (op : BinaryOperator) (a b value : Integer s) (computed : Numeric.binary op a b = .ok value) :
    Refines (binary op a.value b.value) (some value.value) := by
  cases op with
  | add | sub | mul => exact refines_of_eq _ _ (congrArg some (Integer.checked_ok _ value computed).symm)
  | div =>
      obtain ⟨nonzero, quotient⟩ := Integer.divide_ok a b value computed
      rw [binary, if_neg nonzero, quotient]
      exact refines_refl _
  | rem =>
      obtain ⟨nonzero, rest⟩ := Integer.remainder_ok a b value computed
      rw [binary, if_neg nonzero, rest]
      exact refines_refl _
  | pow | shl | shr | bitOr | bitAnd | bitXor => exact refines_none _

variable (inputs : List (Integer s))

theorem left_identity (op : BinaryOperator) (a : Integer s) (effect : Rewrite.Effect) (operand : Int)
    (identity : Rewrite.LeftIdentity a op effect) :
    Refines (binary op a.value operand)
      ((Meaning.exact inputs : Meaning (Integer s) σ Int).effect operand a.value effect) := by
  cases identity with
  | zeroOperand op zero known =>
      rw [(Integer.is_zero_value a).mp zero]
      simp only [List.mem_cons, List.not_mem_nil, or_false] at known
      rcases known with rfl | rfl | rfl
      · exact refines_of_eq _ _ (congrArg some (Int.zero_add operand))
      · exact refines_none _
      · exact refines_none _
  | zeroConstant op zero known =>
      rw [(Integer.is_zero_value a).mp zero]
      simp only [List.mem_cons, List.not_mem_nil, or_false] at known
      rcases known with rfl | rfl | rfl | rfl
      · exact refines_of_eq _ _ (congrArg some (Int.zero_mul operand))
      · exact refines_none _
      · exact refines_none _
      · exact refines_none _
  | zeroNegated zero =>
      rw [(Integer.is_zero_value a).mp zero]
      exact refines_of_eq _ _ (congrArg some (Int.zero_sub operand))
  | one one =>
      rw [(Integer.is_one a).mp one, Integer.one_value]
      exact refines_of_eq _ _ (congrArg some (Int.one_mul operand))
  | minusOne _ minus =>
      rw [Integer.is_minus_one a minus]
      exact refines_of_eq _ _ (congrArg some (Int.neg_one_mul operand))

theorem right_identity (op : BinaryOperator) (b : Integer s) (effect : Rewrite.Effect) (operand : Int)
    (identity : Rewrite.RightIdentity b op effect) :
    Refines (binary op operand b.value)
      ((Meaning.exact inputs : Meaning (Integer s) σ Int).effect operand b.value effect) := by
  cases identity with
  | zeroOperand zero known =>
      rw [(Integer.is_zero_value b).mp zero]
      simp only [List.mem_cons, List.not_mem_nil, or_false] at known
      rcases known with rfl | rfl | rfl | rfl | rfl | rfl
      · exact refines_of_eq _ _ (congrArg some (Int.add_zero operand))
      · exact refines_of_eq _ _ (congrArg some (Int.sub_zero operand))
      · exact refines_none _
      · exact refines_none _
      · exact refines_none _
      · exact refines_none _
  | zeroConstant zero known =>
      rw [(Integer.is_zero_value b).mp zero]
      simp only [List.mem_cons, List.not_mem_nil, or_false] at known
      rcases known with rfl | rfl
      · exact refines_of_eq _ _ (congrArg some (Int.mul_zero operand))
      · exact refines_none _
  | one _ one known =>
      rw [(Integer.is_one b).mp one, Integer.one_value]
      simp only [List.mem_cons, List.not_mem_nil, or_false] at known
      rcases known with rfl | rfl
      · exact refines_of_eq _ _ (congrArg some (Int.mul_one operand))
      · exact refines_of_eq _ _ (congrArg some (Int.tdiv_one operand))
  | minusOne _ _ minus known =>
      rw [Integer.is_minus_one b minus]
      simp only [List.mem_cons, List.not_mem_nil, or_false] at known
      rcases known with rfl | rfl
      · exact refines_of_eq _ _ (congrArg some (Int.mul_neg_one operand))
      · exact refines_of_eq _ _ (congrArg some ((Int.tdiv_neg operand 1).trans (congrArg _ (Int.tdiv_one operand))))

theorem truthy_value (a : Integer s) : decide (a.value ≠ 0) = Numeric.isTruthy a := by
  rw [Numeric.isTruthy, Bool.eq_iff_iff, decide_eq_true_iff, Bool.not_eq_true', ← Bool.not_eq_true,
    Integer.is_zero_value]

theorem exact_lawful (allowed : Borrowed (Integer s) σ → Prop) :
    (Meaning.exact inputs : Meaning (Integer s) σ Int).Lawful allowed where
  same a b same := congrArg Integer.value (of_decide_eq_true same)
  identical _ _ _ _ _ := rfl
  early _ _ _ _ _ _ _ := refines_none _
  unary := unary_computed
  binary := binary_computed
  left := left_identity inputs
  right := right_identity inputs
  noop _ _ _ := refines_refl _
  convert conversion a value computed := by
    cases conversion with
    | identity => exact refines_of_eq _ _ (congrArg (fun a : Integer s => some a.value) (Except.ok.inj computed))
    | integral => exact refines_of_eq _ _ (congrArg (fun a : Integer s => some a.value) (Except.ok.inj computed))
  truthy := truthy_value

def Agree (value : Option (Integer s)) (whole : Option Int) : Prop :=
  ∀ a b, value = some a → whole = some b → a.value = b

theorem layer_agree (now : σ) (shape : Shape (Integer s) σ Nat) (f : Nat → Option (Integer s)) (g : Nat → Option Int)
    (agree : ∀ child ∈ shape.children, Agree (f child) (g child)) :
    Agree ((Meaning.value now inputs).layer (shape.map f)) ((Meaning.exact inputs).layer (shape.map g)) := by
  intro value whole given defined
  cases shape with
  | constant literal name =>
      obtain rfl := Option.some.inj given
      exact Option.some.inj defined
  | parameter index =>
      obtain ⟨input, found, rfl⟩ := Option.map_eq_some_iff.mp defined
      exact congrArg Integer.value (Option.some.inj (given.symm.trans found))
  | member source => exact absurd defined (by simp [Shape.map, Meaning.layer, Meaning.exact])
  | unary op operand span =>
      obtain ⟨a, here, computed⟩ := Option.bind_eq_some_iff.mp given
      obtain ⟨b, there, other⟩ := Option.bind_eq_some_iff.mp defined
      obtain rfl := agree operand (by simp [Shape.children]) a b here there
      have same := unary_computed op a value ((to_option_some _ value).mp computed) whole other
      exact Option.some.inj same
  | binary op left right span =>
      obtain ⟨a, leftHere, given⟩ := Option.bind_eq_some_iff.mp given
      obtain ⟨b, rightHere, computed⟩ := Option.bind_eq_some_iff.mp given
      obtain ⟨c, leftThere, defined⟩ := Option.bind_eq_some_iff.mp defined
      obtain ⟨d, rightThere, other⟩ := Option.bind_eq_some_iff.mp defined
      obtain rfl := agree left (by simp [Shape.children]) a c leftHere leftThere
      obtain rfl := agree right (by simp [Shape.children]) b d rightHere rightThere
      have same := binary_computed op a b value ((to_option_some _ value).mp computed) whole other
      exact Option.some.inj same
  | convert conversion operand span =>
      obtain ⟨a, here, computed⟩ := Option.bind_eq_some_iff.mp given
      obtain ⟨b, there, kept⟩ := Option.bind_eq_some_iff.mp defined
      obtain rfl := agree operand (by simp [Shape.children]) a b here there
      have same : a = value := by cases conversion <;> exact Option.some.inj computed
      exact same ▸ Option.some.inj kept
  | call routine args span =>
      obtain ⟨values, -, nothing⟩ := Option.bind_eq_some_iff.mp defined
      exact absurd nothing (by simp [Meaning.exact])
  | conditional condition accepted rejected =>
      obtain ⟨a, here, given⟩ := Option.bind_eq_some_iff.mp given
      obtain ⟨b, there, defined⟩ := Option.bind_eq_some_iff.mp defined
      obtain rfl := agree condition (by simp [Shape.children]) a b here there
      change (if decide (a.value ≠ 0) = true then g accepted else g rejected) = some whole at defined
      rw [truthy_value] at defined
      change (if Numeric.isTruthy a = true then f accepted else f rejected) = some value at given
      by_cases truthy : Numeric.isTruthy a = true
      · rw [if_pos truthy] at given defined
        exact agree accepted (by simp [Shape.children]) value whole given defined
      · rw [if_neg truthy] at given defined
        exact agree rejected (by simp [Shape.children]) value whole given defined

end Exactly

namespace Graph

variable (inputs : List (Integer s))

theorem run_exact (graph : Graph (Integer s) σ) (earlier : graph.cells.Earlier)
    (closed : ∀ borrowed, ¬ graph.cells.Borrows borrowed) (now : σ) (value : Integer s) (whole : Int)
    (given : (graph.run inputs).outcome now = .ok value)
    (defined : graph.fold (Meaning.exact inputs).layer none = some whole) : value.value = whole := by
  have gives := graph_gives (fun _ => True) now inputs graph earlier
    (fun borrowed uses => absurd uses (closed borrowed)) now trivial
  have means := gives.1.symm.trans ((to_option_some _ value).mpr given)
  have agree := fold_related Exactly.Agree (Meaning.value now inputs).layer (Meaning.exact inputs).layer none none
    graph earlier (fun a b none _ => absurd none (by simp))
    (fun index shape f g read => Exactly.layer_agree inputs now shape f g)
  exact agree value whole means defined

theorem arithmetic_within (e : Expr (Integer s) σ) (arithmetic : e.Arithmetic) :
    e.Every (Shape.Within (fun _ => False) fun _ _ => False) := by
  induction arithmetic with
  | node shape here below ih =>
      refine .node shape ⟨?_, ?_⟩ ih
      · intro borrowed uses
        cases shape <;> simp_all [Shape.borrowed?, Shape.isArithmetic]
      · rintro value name rfl
        simp [Shape.isArithmetic] at here

end Graph

namespace Evaluator

-- What a call of an arithmetic expression gives is its value over all integers, where it has one.
theorem call_exact (e : Expr (Integer s) σ) (arithmetic : e.Arithmetic) (expression : String)
    (names : List String) (optimize : Bool) (before now : σ) (inputs : List (Integer s)) (value : Integer s)
    (whole : Int) (defined : e.whole? inputs = some whole)
    (called : (((finish expression names optimize e).run before).1.call inputs).outcome now = .ok value) :
    value.value = whole := by
  have within := Graph.arithmetic_within e arithmetic
  have earlier := Graph.of_expr_earlier e
  have closed := (Graph.of_expr_written _ _ e within).sound.allowed
  have raw : (Graph.ofExpr e).fold (Meaning.exact inputs).layer none = some whole :=
    (Graph.of_expr_fold _ _ e within (fun _ _ _ impossible => impossible.elim) _ none).trans defined
  obtain ⟨-, called⟩ := (Compiled.call_ok _ inputs now value).mp called
  cases optimize with
  | false => exact Graph.run_exact inputs (Graph.ofExpr e) earlier closed now value whole called raw
  | true =>
      have settled : (Graph.ofExpr e).cells.EarlySettled := fun borrowed uses => (closed borrowed uses).elim
      have lawful := Exactly.exact_lawful inputs (Graph.ofExpr e).cells.Borrows
      have faithful := Meaning.layer_faithful _ _ lawful
      have kept := optimized_refines _ (Graph.ofExpr e) faithful before earlier settled whole raw
      exact Graph.run_exact inputs ((Graph.ofExpr e).optimized before).1
        (Graph.optimized_normal _ before earlier settled).normal.earlier
        (fun borrowed uses => closed borrowed (Graph.optimized_borrows _ before earlier settled borrowed uses))
        now value whole called kept

-- `(x + y) * 0`
def cancelled : Expr (Integer .signed) Unit :=
  .node (.binary .mul (.node (.binary .add (.node (.parameter 0)) (.node (.parameter 1)) ⟨3, 4⟩))
    (.node (.constant (Integer.ofBits .signed 0) none)) ⟨8, 9⟩)

def greatest : List (Integer .signed) := [Integer.ofBits .signed 0x7fffffffffffffff, Integer.ofBits .signed 1]

-- The sum overflows, and the optimizer leaves it out.
theorem cancelled_exact :
    cancelled.Arithmetic ∧ cancelled.whole? greatest = some 0 ∧
      (((finish "(x + y) * 0" ["x", "y"] false cancelled).run ()).1.call greatest).outcome () =
        .error (.located ⟨3, 4⟩ .overflow) ∧
      ∃ value, (((finish "(x + y) * 0" ["x", "y"] true cancelled).run ()).1.call greatest).outcome () = .ok value ∧
        value.value = 0 := by
  have parameter (index : Nat) : Expr.Arithmetic (.node (.parameter index) : Expr (Integer .signed) Unit) :=
    Expr.Every.node _ rfl (by simp [Shape.children])
  have zero : Expr.Arithmetic (.node (.constant (Integer.ofBits .signed 0) none) : Expr (Integer .signed) Unit) :=
    Expr.Every.node _ rfl (by simp [Shape.children])
  have sum : Expr.Arithmetic (.node (.binary .add (.node (.parameter 0)) (.node (.parameter 1)) ⟨3, 4⟩) :
      Expr (Integer .signed) Unit) := by
    refine Expr.Every.node _ rfl ?_
    simpa [Shape.children] using ⟨parameter 0, parameter 1⟩
  have arithmetic : cancelled.Arithmetic := by
    refine Expr.Every.node _ rfl ?_
    simpa [Shape.children] using ⟨sum, zero⟩
  have means : cancelled.whole? greatest = some 0 := rfl
  have called : (((finish "(x + y) * 0" ["x", "y"] true cancelled).run ()).1.call greatest).outcome () =
      .ok (Integer.ofBits .signed 0) := by with_unfolding_all rfl
  exact ⟨arithmetic, means, rfl, _, called, call_exact cancelled arithmetic _ _ true () () greatest _ 0 means called⟩

end Evaluator

end Formula
