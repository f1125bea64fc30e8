import Formula.Proofs.Graph.Relabelling

set_option autoImplicit false

namespace Formula

variable {T σ ι : Type} (spell : String → String)

def Shape.respelled : Shape T σ ι → Shape T σ ι
  | .constant value name => .constant value (name.map spell)
  | .member source => .member (source.respelled spell)
  | .call routine args span => .call (routine.respelled spell) args span
  | shape => shape

def Expr.respelled : Expr T σ → Expr T σ := Expr.fold fun shape => .node (shape.respelled spell)

def Cells.respelled (cells : Cells T σ) : Cells T σ := cells.map (Shape.respelled spell)

def Graph.respelled (graph : Graph T σ) : Graph T σ := ⟨graph.cells.respelled spell⟩

def Labels.spelling : Labels := ⟨spell, id⟩

theorem Labels.spelling_distinct (known : String → Prop) (apart : Apart spell known) : (spelling spell).Distinct known :=
  ⟨apart, Function.injective_id⟩

theorem Shape.respelled_labels : (Shape.respelled spell : Shape T σ ι → Shape T σ ι) = relabelled (.spelling spell) := by
  funext shape
  cases shape <;> rfl

theorem Expr.respelled_labels : (Expr.respelled spell : Expr T σ → Expr T σ) = relabelled (.spelling spell) := by
  unfold Expr.respelled Expr.relabelled
  rw [Shape.respelled_labels]

theorem Graph.respelled_labels : (Graph.respelled spell : Graph T σ → Graph T σ) = relabelled (.spelling spell) := by
  funext graph
  rw [respelled, relabelled, Cells.respelled, Cells.relabelled, Shape.respelled_labels]

end Formula
