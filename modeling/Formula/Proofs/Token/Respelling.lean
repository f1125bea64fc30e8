import Formula.Proofs.Graph.Respelling
import Formula.Proofs.Token.Relabelling

set_option autoImplicit false

namespace Formula

variable {T σ : Type} (spell : String → String)

def Action.respelled : Action T σ → Action T σ
  | .bound name value => .bound (spell name) value
  | .member source => .member (source.respelled spell)
  | .call routine => .call (routine.respelled spell)
  | action => action

def Form.respelled (form : Form T σ) : Form T σ :=
  { form with
    name := if form.role.isWord then spell form.name else form.name
    action := form.action.respelled spell }

def Template.respelled (template : Template T σ) : Template T σ :=
  ⟨template.form.respelled spell, template.alone.map (Form.respelled spell)⟩

def Token.respelled (token : Token T σ) : Token T σ :=
  { token with form := token.form.respelled spell, alone := token.alone.map (Form.respelled spell) }

def Order.respelled (state : Order T σ) : Order T σ := { state with stack := state.stack.map (Token.respelled spell) }

theorem Form.respelled_labels : (Form.respelled spell : Form T σ → Form T σ) = relabelled (.spelling spell) := by
  funext form
  obtain ⟨name, role, precedence, action⟩ := form
  cases action <;> rfl

theorem Token.respelled_labels : (Token.respelled spell : Token T σ → Token T σ) = relabelled (.spelling spell) := by
  funext token
  rw [respelled, relabelled, Form.respelled_labels]

theorem Order.respelled_order (expression : String) (state : Order T σ) (items : List (Except ParseError (Token T σ))) :
    orderFrom expression (state.respelled spell) (items.map (Except.map (Token.respelled spell))) =
      (orderFrom expression state items).map (Except.map (Token.respelled spell)) := by
  rw [respelled, Token.respelled_labels]
  exact relabelled_order _ expression state items

-- The error without what it says in words.
def EvalError.anonymous : EvalError → EvalError
  | argumentCount _ expected found => argumentCount "" expected found
  | malformed _ => malformed ""
  | located span source => located span source.anonymous
  | error => error

def Error.anonymous : Error → Error
  | eval error => eval error.anonymous
  | error => error

theorem Labels.blank_words (labels : Labels) : labels.Blank EvalError.anonymous :=
  ⟨fun _ _ _ => rfl, fun _ => rfl, fun _ => rfl, fun error _ => by cases error <;> rfl⟩

theorem respelled_tree (expression : String) (items : List (Except ParseError (Token T σ))) :
    Except.Respelled (Expr.respelled spell) Error.anonymous
      ((foldTree (Postfix.order expression (items.map (Except.map (Token.respelled spell))))).mapError foldError)
      ((foldTree (Postfix.order expression items)).mapError foldError) := by
  have silent : Error.anonymous = Error.blanked EvalError.anonymous := by
    funext error
    cases error <;> rfl
  rw [silent, Token.respelled_labels, Expr.respelled_labels]
  exact relabelled_tree _ _ (Labels.blank_words _) expression items

theorem infos_respelled (text : List Char) (items : List (Except ParseError (Token T σ))) :
    Evaluator.infos text (items.map (Except.map (Token.respelled spell))) = Evaluator.infos text items := by
  rw [Evaluator.infos, Evaluator.infos, List.mapM_map]
  congr 1
  funext item
  cases item <;> rfl

end Formula
