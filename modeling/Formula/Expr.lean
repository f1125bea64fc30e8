import Formula.Shape

set_option autoImplicit false

namespace Formula

inductive Expr (T σ : Type) where
  | node (shape : Shape T σ (Expr T σ))

namespace Expr

variable {T σ α : Type}

def shape : Expr T σ → Shape T σ (Expr T σ)
  | node shape => shape

mutual
def fold (layer : Shape T σ α → α) : Expr T σ → α
  | node (.constant value name) => layer (.constant value name)
  | node (.parameter index) => layer (.parameter index)
  | node (.member source) => layer (.member source)
  | node (.unary op operand span) => layer (.unary op (fold layer operand) span)
  | node (.binary op left right span) =>
      layer (.binary op (fold layer left) (fold layer right) span)
  | node (.convert conversion operand span) =>
      layer (.convert conversion (fold layer operand) span)
  | node (.call routine args span) => layer (.call routine (foldAll layer args) span)
  | node (.conditional condition accepted rejected) =>
      layer (.conditional (fold layer condition) (fold layer accepted) (fold layer rejected))
def foldAll (layer : Shape T σ α → α) : List (Expr T σ) → List α
  | [] => []
  | arg :: rest => fold layer arg :: foldAll layer rest
end

theorem fold_all_map (layer : Shape T σ α → α) (args : List (Expr T σ)) :
    foldAll layer args = args.map (fold layer) := by
  induction args with
  | nil => rfl
  | cons arg rest ih => rw [foldAll, ih, List.map_cons]

theorem fold_node (layer : Shape T σ α → α) (shape : Shape T σ (Expr T σ)) :
    fold layer (node shape) = layer (shape.map (fold layer)) := by
  cases shape <;> simp only [fold, Shape.map, fold_all_map]

def count : Expr T σ → Nat := fold Shape.count

def render [Numeric T] (names : List String) : Expr T σ → String := fold (Shape.render names)

def run [Numeric T] : Expr T σ → Program T σ := fold Shape.run

theorem induction_on_children {P : Expr T σ → Prop}
    (step : ∀ shape, (∀ child ∈ shape.children, P child) → P (node shape)) (e : Expr T σ) : P e := by
  apply Expr.rec (motive_1 := P) (motive_2 := fun shape => ∀ child ∈ shape.children, P child)
    (motive_3 := fun args => ∀ child ∈ args, P child)
  case node => exact step
  all_goals simp_all [Shape.children]

end Expr

end Formula
