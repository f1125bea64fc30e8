import Formula.Proofs.Graph.Faithful

/-!
Meanings that are put together from what operations, inputs and the host mean. Each rule of the
optimizer asks for one law; a meaning that has them all is kept by optimizing.
-/

set_option autoImplicit false

namespace Formula

variable {T σ V : Type}

structure Meaning (T σ V : Type) where
  constant : T → V
  parameter : Nat → Option V
  use : Borrowed T σ → List V → Option V
  unary : UnaryOperator → V → Option V
  binary : BinaryOperator → V → V → Option V
  convert : Conversion → V → Option V
  truthy : V → Bool

namespace Meaning

def layer (meaning : Meaning T σ V) : Shape T σ (Option V) → Option V
  | .constant value _ => some (meaning.constant value)
  | .parameter index => meaning.parameter index
  | .member source => meaning.use (.member source) []
  | .unary op operand _ => operand.bind (meaning.unary op)
  | .binary op left right _ => left.bind fun a => right.bind (meaning.binary op a)
  | .convert conversion operand _ => operand.bind (meaning.convert conversion)
  | .call routine args _ => (args.mapM id).bind (meaning.use (.routine routine))
  | .conditional condition accepted rejected =>
      condition.bind fun a => if meaning.truthy a then accepted else rejected

def effect (meaning : Meaning T σ V) (operand constant : V) : Rewrite.Effect → Option V
  | .operand => some operand
  | .constant => some constant
  | .negated => meaning.unary .negate operand

variable [Numeric T]

structure Lawful (meaning : Meaning T σ V) (allowed : Borrowed T σ → Prop) : Prop where
  same : ∀ a b, Numeric.same a b = true → meaning.constant a = meaning.constant b
  identical : ∀ a b, allowed a → allowed b → a.identical b = true → meaning.use a = meaning.use b
  early : ∀ borrowed args host value, allowed borrowed → borrowed.isEarly = true →
    (borrowed.use args).outcome host = .ok value →
    Refines (meaning.use borrowed (args.map meaning.constant)) (some (meaning.constant value))
  unary : ∀ op a value, Numeric.unary op a = .ok value →
    Refines (meaning.unary op (meaning.constant a)) (some (meaning.constant value))
  binary : ∀ op a b value, Numeric.binary op a b = .ok value →
    Refines (meaning.binary op (meaning.constant a) (meaning.constant b)) (some (meaning.constant value))
  left : ∀ op a effect operand, Rewrite.LeftIdentity a op effect →
    Refines (meaning.binary op (meaning.constant a) operand) (meaning.effect operand (meaning.constant a) effect)
  right : ∀ op b effect operand, Rewrite.RightIdentity b op effect →
    Refines (meaning.binary op operand (meaning.constant b)) (meaning.effect operand (meaning.constant b) effect)
  noop : ∀ conversion a, conversion.isNoop T = true → Refines (meaning.convert conversion a) (some a)
  convert : ∀ (conversion : Conversion) a value, conversion.apply a = .ok value →
    Refines (meaning.convert conversion (meaning.constant a)) (some (meaning.constant value))
  truthy : ∀ a, meaning.truthy (meaning.constant a) = Numeric.isTruthy a

section

variable (meaning : Meaning T σ V)

omit [Numeric T] in
theorem args_refine (args : List Nat) (f g : Nat → Option V)
    (finer : ∀ arg ∈ args, Refines (f arg) (g arg)) : Refines ((args.map f).mapM id) ((args.map g).mapM id) := by
  induction args with
  | nil => exact refines_refl _
  | cons arg rest ih =>
      rw [List.map_cons, List.map_cons, List.mapM_cons, List.mapM_cons]
      refine refines_bind _ _ _ _ (finer arg (by simp)) fun value => ?_
      exact refines_bind _ _ _ _ (ih fun arg member => finer arg (by simp [member])) fun values => refines_refl _

omit [Numeric T] in
theorem layer_refines (shape : Shape T σ Nat) (f g : Nat → Option V)
    (finer : ∀ child ∈ shape.children, Refines (f child) (g child)) :
    Refines (meaning.layer (shape.map f)) (meaning.layer (shape.map g)) := by
  cases shape with
  | constant value name => exact refines_refl _
  | parameter index => exact refines_refl _
  | member source => exact refines_refl _
  | unary op operand span =>
      exact refines_bind _ _ _ _ (finer operand (by simp [Shape.children])) fun a => refines_refl _
  | binary op left right span =>
      refine refines_bind _ _ _ _ (finer left (by simp [Shape.children])) fun a => ?_
      exact refines_bind _ _ _ _ (finer right (by simp [Shape.children])) fun b => refines_refl _
  | convert conversion operand span =>
      exact refines_bind _ _ _ _ (finer operand (by simp [Shape.children])) fun a => refines_refl _
  | call routine args span =>
      exact refines_bind _ _ _ _ (args_refine args f g finer) fun values => refines_refl _
  | conditional condition accepted rejected =>
      refine refines_bind _ _ _ _ (finer condition (by simp [Shape.children])) fun a => ?_
      split
      · exact finer accepted (by simp [Shape.children])
      · exact finer rejected (by simp [Shape.children])

variable (allowed : Borrowed T σ → Prop) (lawful : meaning.Lawful allowed)

include lawful in
theorem layer_alike (a b : Shape T σ Nat) (known : Nat → Option V)
    (allowedA : ∀ borrowed, a.borrowed? = some borrowed → allowed borrowed)
    (allowedB : ∀ borrowed, b.borrowed? = some borrowed → allowed borrowed) (like : Cells.alike a b = true) :
    meaning.layer (a.map known) = meaning.layer (b.map known) := by
  cases a <;> cases b <;> simp only [Cells.alike, Bool.and_eq_true, decide_eq_true_eq, Bool.false_eq_true] at like
  case constant.constant v _ w _ => exact congrArg some (lawful.same v w like)
  case parameter.parameter => rw [like]
  case member.member m n =>
      exact congrFun (lawful.identical (.member m) (.member n) (allowedA _ rfl) (allowedB _ rfl) like) []
  case unary.unary => rw [like.1, like.2]; rfl
  case binary.binary => rw [like.1.1, like.1.2, like.2]; rfl
  case convert.convert => rw [like.1, like.2]; rfl
  case call.call f args _ g others _ =>
      have same := lawful.identical (.routine f) (.routine g) (allowedA _ rfl) (allowedB _ rfl) like.1
      rw [Shape.map, Shape.map, layer, layer, same, like.2]
  case conditional.conditional => rw [like.1.1, like.1.2, like.2]

omit [Numeric T] in
theorem args_known (cells : Cells T σ) (known : Nat → Option V) (args : List Nat) (values : List T)
    (constants : ∀ index value, cells.constantAt? index = some value → known index = some (meaning.constant value))
    (found : Rewrite.constants? cells args = some values) :
    (args.map known).mapM id = some (values.map meaning.constant) := by
  replace found := Rewrite.constants_each cells args values found
  induction found with
  | nil => rfl
  | cons here _ ih =>
      rw [List.map_cons, List.mapM_cons, constants _ _ here, ih]
      rfl

omit [Numeric T] in
theorem effect_worth (known : Nat → Option V) (effect : Rewrite.Effect) (operand constant : Nat) (span : Span)
    (a b : V) (operandKnown : known operand = some a) (constantKnown : known constant = some b) :
    (effect.place operand constant span).worth meaning.layer known = meaning.effect a b effect := by
  cases effect with
  | operand => exact operandKnown
  | constant => exact constantKnown
  | negated => exact congrArg (fun found : Option V => found.bind (meaning.unary .negate)) operandKnown

include lawful in
theorem rule_refines (cells : Cells T σ) (host : σ) (shape : Shape T σ Nat) (replacement : Replacement T σ)
    (known : Nat → Option V) (allowedShape : ∀ borrowed, shape.borrowed? = some borrowed → allowed borrowed)
    (constants : ∀ index value, cells.constantAt? index = some value → known index = some (meaning.constant value))
    (rule : Rewrite.Rule cells host shape replacement) :
    Refines (meaning.layer (shape.map known)) (replacement.worth meaning.layer known) := by
  intro result present
  cases rule with
  | unary op operand span a value operandKnown computed =>
      rw [Shape.map, layer, constants operand a operandKnown] at present
      exact lawful.unary op a value computed result present
  | binary op left right span a b value leftKnown rightKnown computed =>
      rw [Shape.map, layer, constants left a leftKnown, constants right b rightKnown] at present
      exact lawful.binary op a b value computed result present
  | left op left right span a effect leftKnown rightOpen identity =>
      rw [Shape.map, layer, constants left a leftKnown, Option.bind_some] at present
      obtain ⟨b, rightMeans, computed⟩ := Option.bind_eq_some_iff.mp present
      rw [effect_worth meaning known effect right left span b _ rightMeans (constants left a leftKnown)]
      exact lawful.left op a effect b identity result computed
  | right op left right span b effect leftOpen rightKnown identity =>
      rw [Shape.map, layer, constants right b rightKnown] at present
      obtain ⟨a, leftMeans, computed⟩ := Option.bind_eq_some_iff.mp present
      rw [effect_worth meaning known effect left right span a _ leftMeans (constants right b rightKnown)]
      exact lawful.right op b effect a identity result computed
  | noop conversion operand span noop =>
      rw [Shape.map, layer] at present
      obtain ⟨a, means, computed⟩ := Option.bind_eq_some_iff.mp present
      exact means.trans (lawful.noop conversion a noop result computed)
  | convert conversion operand span a value operandKnown computed =>
      rw [Shape.map, layer, constants operand a operandKnown] at present
      exact lawful.convert conversion a value computed result present
  | call routine args span values value foldable found computed =>
      rw [Shape.map, layer, args_known meaning cells known args values constants found] at present
      exact lawful.early (.routine routine) values host value (allowedShape _ rfl) foldable computed result present
  | member source value readOnly computed =>
      exact lawful.early (.member source) [] host value (allowedShape _ rfl) readOnly computed result present
  | conditional condition accepted rejected a conditionKnown =>
      rw [Shape.map, layer, constants condition a conditionKnown, Option.bind_some, lawful.truthy] at present
      rw [← present]
      exact apply_ite known _ accepted rejected

include lawful in
theorem layer_faithful : Faithful allowed meaning.layer where
  refines := layer_refines meaning
  unnamed _ _ := rfl
  alike := layer_alike meaning allowed lawful
  rule := rule_refines meaning allowed lawful

end

end Meaning

end Formula
