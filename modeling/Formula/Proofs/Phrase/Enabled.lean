import Formula.Proofs.Grammar.Inputs
import Formula.Proofs.Graph.Faults

set_option autoImplicit false

namespace Formula

variable {T σ : Type}

def Action.Enabled (flags : Flags) : Action T σ → Prop
  | .unary op => op.under flags = true
  | .binary op => op.under flags = true
  | .convert .identity => flags.numeric = true
  | _ => True

def Template.Enabled (flags : Flags) (template : Template T σ) : Prop :=
  ∀ form, form = template.form ∨ template.alone = some form → form.action.Enabled flags

def Shape.Enabled (flags : Flags) : Shape T σ Unit → Prop
  | .unary op _ _ => op.under flags = true
  | .binary op _ _ _ => op.under flags = true
  | .convert .identity _ _ => flags.numeric = true
  | _ => True

namespace Grammar

theorem builtin_operators_enabled (flags : Flags) :
    ∀ template ∈ builtinOperators flags, (template : Template T σ).Enabled flags := by
  apply builtin_operators_each
  · simp [punctuationTemplates, Template.Enabled, Template.punctuation, Action.Enabled]
  · intro enabled
    simp [numericTemplates, Template.Enabled, Template.leftBinary, Action.Enabled, BinaryOperator.under,
      UnaryOperator.under, enabled]
  · intro enabled
    simp [decimalTemplates, Template.Enabled, Template.leftBinary, Template.rightBinary, Action.Enabled,
      BinaryOperator.under, enabled]
  · intro enabled
    simp [integerTemplates, Template.Enabled, Template.leftBinary, Template.before, Action.Enabled,
      BinaryOperator.under, UnaryOperator.under, enabled]

theorem built_enabled [Numeric T] (settings : Settings T σ) (evaluator : Evaluator T σ)
    (built : settings.build = .ok evaluator) : evaluator.grammar.EveryName (Template.Enabled settings.flags) := by
  apply built_templates settings evaluator built (builtin_operators_enabled settings.flags)
  · simp [builtinIdentifiers, Template.Enabled, Template.function, Action.Enabled]
  · intro name offer _
    cases offer <;> simp [Extension.template, Template.Enabled, Template.function, Template.operand, Action.Enabled]

end Grammar

namespace Phrase

theorem carried_enabled (flags : Flags) (grammar : Grammar T σ) (each : grammar.EveryName (Template.Enabled flags))
    (token : Token T σ) (carried : Carries grammar token) :
    token.form.action.Enabled flags ∧ token.lone.form.action.Enabled flags := by
  have named (template : Template T σ) (enabled : template.Enabled flags) (span : Span) :
      (Token.ofTemplate template span).form.action.Enabled flags ∧
        (Token.ofTemplate template span).lone.form.action.Enabled flags :=
    ⟨enabled _ (.inl rfl), enabled _ (lone_form (.ofTemplate template span))⟩
  cases carried with
  | operator entry known span => exact named _ (each.1 entry known) span
  | identifier entry known span => exact named _ (each.2 entry known) span
  | literal name value span => exact ⟨trivial, trivial⟩
  | parameter name index span => exact ⟨trivial, trivial⟩
  | unknown name span => exact ⟨trivial, trivial⟩

theorem enabled_builds (flags : Flags) (token : Token T σ) (enabled : token.form.action.Enabled flags) :
    Builds (fun shape => shape.outline.Enabled flags) token := by
  constructor
  · intro e leaf
    unfold Token.leaf? at leaf
    split at leaf
    case h_5 => exact absurd leaf (by simp)
    all_goals
      obtain rfl := Option.some.inj leaf
      exact .node _ trivial (by simp [Shape.children])
  · intro args below e combined
    unfold Token.combine? at combined
    split at combined
    case h_1 _ op operand action =>
      obtain rfl := Option.some.inj combined
      rw [action] at enabled
      exact .node _ enabled below
    case h_2 _ conversion operand action =>
      obtain rfl := Option.some.inj combined
      rw [action] at enabled
      cases conversion with
      | identity => exact .node _ enabled below
      | integral => exact .node _ trivial below
    case h_3 _ op left right action =>
      obtain rfl := Option.some.inj combined
      rw [action] at enabled
      exact .node _ enabled below
    case h_4 =>
      obtain rfl := Option.some.inj combined
      exact .node _ trivial below
    case h_5 =>
      split at combined
      · obtain rfl := Option.some.inj combined
        exact .node _ trivial below
      · exact absurd combined (by simp)
    case h_6 => exact absurd combined (by simp)

end Phrase

theorem Shape.enabled_kept [Numeric T] (flags : Flags) : Rewrite.Keeps (Shape.Enabled flags : Shape T σ Unit → Prop) := by
  refine Rewrite.keeps_negated _ (fun _ _ => trivial) fun op span place known here => ?_
  simp only [List.mem_cons, List.not_mem_nil, or_false] at known
  rcases known with rfl | rfl | rfl <;> exact here

namespace Evaluator

variable [Numeric T] (settings : Settings T σ) (evaluator : Evaluator T σ) (built : settings.build = .ok evaluator)

include built

theorem tree_enabled (parameters : Parameters) (expression : String) (e : Expr T σ)
    (found : evaluator.tree parameters expression = .ok e) :
    e.Every fun shape => shape.outline.Enabled settings.flags := by
  obtain ⟨p, -, -, carried, tree⟩ := Phrase.tree_sentence settings evaluator built parameters expression e found
  refine Phrase.tree_every _ p (fun token member => ?_) e tree
  obtain ⟨here, alone⟩ := Phrase.carried_enabled settings.flags evaluator.grammar
    (Grammar.built_enabled settings evaluator built) token (carried token member)
  exact ⟨Phrase.enabled_builds _ token here, Phrase.enabled_builds _ token.lone alone⟩

theorem compiled_uniform (expression : String) (names : List String) (optimize : Bool) (before : σ) (compiled : Compiled T σ)
    (done : ((evaluator.compileWith expression names optimize).run before).1 = .ok compiled) :
    compiled.parameters = names ∧ evaluator.grammar.Declared [] names ∧
      compiled.graph.Uniform (fun shape => shape.Admitted evaluator.grammar names.length) ∧
      compiled.graph.Uniform (Shape.Enabled settings.flags) := by
  obtain ⟨parameters, e, bound, found, rfl⟩ := (compile_ok evaluator expression names optimize before compiled).mp done
  obtain ⟨rfl, declared⟩ := (Grammar.bind_parameters_declared _ _ _).mp bound
  have admitted := Graph.of_expr_uniform _ e (tree_admitted settings evaluator built _ expression e found)
  have enabled := Graph.of_expr_uniform _ e (tree_enabled settings evaluator built _ expression e found)
  cases optimize with
  | false => exact ⟨rfl, declared, admitted, enabled⟩
  | true =>
      exact ⟨rfl, declared, Graph.optimized_uniform _ (admitted_kept _ _) _ before admitted,
        Graph.optimized_uniform _ (Shape.enabled_kept _) _ before enabled⟩

end Evaluator

end Formula
