import Formula.Proofs.Graph.Compiled
import Formula.Proofs.Graph.Stable
import Formula.Proofs.Numeric.Dependable
import Formula.Proofs.Token.Scan

set_option autoImplicit false

namespace Formula

variable {T σ : Type}

theorem Flags.contains_iff (a b : Flags) :
    a.contains b = true ↔ (b.numeric = true → a.numeric = true) ∧ (b.decimal = true → a.decimal = true) ∧
      (b.integer = true → a.integer = true) ∧ (b.caseSensitive = true → a.caseSensitive = true) := by
  have flag (x y : Bool) : (x || !y) = true ↔ (y = true → x = true) := by cases x <;> cases y <;> decide
  simp only [contains, Bool.and_eq_true, flag, and_assoc]

def Action.Within (flags : Flags) (count : Nat) : Action T σ → Prop
  | .unary op => op.under flags = true
  | .binary op => op.under flags = true
  | .parameter index => index < count
  | _ => True

theorem Action.within_more (flags : Flags) (few many : Nat) (action : Action T σ) (within : action.Within flags few)
    (fewer : few ≤ many) : action.Within flags many := by
  cases action with
  | parameter index => exact Nat.lt_of_lt_of_le within fewer
  | _ => exact within

def Template.Within (flags : Flags) (count : Nat) (template : Template T σ) : Prop :=
  ∀ form, form = template.form ∨ template.alone = some form → form.action.Within flags count

namespace Grammar

theorem builtin_operators_within (flags : Flags) :
    ∀ template ∈ builtinOperators flags, (template : Template T σ).Within flags 0 := by
  apply builtin_operators_each
  · simp [punctuationTemplates, Template.Within, Template.punctuation, Action.Within]
  · intro enabled
    simp [numericTemplates, Template.Within, Template.leftBinary, Action.Within, BinaryOperator.under,
      UnaryOperator.under, enabled]
  · intro enabled
    simp [decimalTemplates, Template.Within, Template.leftBinary, Template.rightBinary, Action.Within,
      BinaryOperator.under, enabled]
  · intro enabled
    simp [integerTemplates, Template.Within, Template.leftBinary, Template.before, Action.Within,
      BinaryOperator.under, UnaryOperator.under, enabled]

theorem built_within [Numeric T] (settings : Settings T σ) (evaluator : Evaluator T σ)
    (built : settings.build = .ok evaluator) :
    evaluator.grammar.EveryName fun template => template.Within settings.flags 0 := by
  apply built_templates settings evaluator built (builtin_operators_within settings.flags)
  · simp [builtinIdentifiers, Template.Within, Template.function, Action.Within]
  · intro name offer _
    cases offer <;>
      simp [Extension.template, Template.Within, Template.function, Template.operand, Action.Within]

theorem build_supported [Numeric T] (settings : Settings T σ) (evaluator : Evaluator T σ)
    (built : settings.build = .ok evaluator) :
    (Numeric.supported T).contains { settings.flags with caseSensitive := false } = true := by
  cases supported : (Numeric.supported T).contains { settings.flags with caseSensitive := false } with
  | true => rfl
  | false =>
      by_cases conflicting : (settings.flags.decimal && settings.flags.integer) = true <;>
        simp [Settings.build, standard, supported, conflicting, bind, Except.bind, throw, throwThe,
          MonadExceptOf.throw] at built

theorem within_supported [Numeric T] (settings : Settings T σ) (evaluator : Evaluator T σ)
    (built : settings.build = .ok evaluator) (count : Nat) (action : Action T σ)
    (within : action.Within settings.flags count) : action.Within (Numeric.supported T) count := by
  obtain ⟨numeric, decimal, integer, -⟩ := (Flags.contains_iff _ _).mp (build_supported settings evaluator built)
  have shift : (settings.flags.decimal || settings.flags.integer) = true →
      ((Numeric.supported T).decimal || (Numeric.supported T).integer) = true := by
    simp only [Bool.or_eq_true]
    exact Or.imp decimal integer
  cases action with
  | unary op =>
      cases op with
      | negate => exact numeric within
      | complement => exact integer within
  | binary op =>
      cases op with
      | add | sub | mul | div | rem => exact numeric within
      | pow => exact decimal within
      | shl | shr => exact shift within
      | bitOr | bitAnd | bitXor => exact integer within
  | parameter index => exact within
  | _ => trivial

end Grammar

namespace Source

theorem scan_within (source : Source T σ) (flags : Flags)
    (registered : source.grammar.EveryName fun template => template.Within flags 0) (start : Nat) (rest : List Char)
    (template : Template T σ) (length : Nat) (scanned : source.scan start rest = .ok (template, length)) :
    template.Within flags source.parameters.names.length := by
  have named (entries : List (Entry T σ)) (each : ∀ entry ∈ entries, entry.template.Within flags 0)
      (member : (template, length) ∈ source.grammar.candidates entries rest) :
      template.Within flags source.parameters.names.length := by
    obtain ⟨entry, known, rfl⟩ := Grammar.candidate_entry _ _ _ _ member
    intro form one
    exact Action.within_more flags 0 _ form.action (each entry known form one) (Nat.zero_le _)
  rw [scan] at scanned
  cases matched : (source.grammar.matchOperator rest).or (source.grammar.matchIdentifier rest) with
  | some found =>
      obtain rfl := Except.ok.inj (by simpa only [matched] using scanned)
      rcases Option.or_eq_some_iff.mp matched with operator | ⟨-, identifier⟩
      · exact named _ registered.1 (Grammar.longest_member _ _ operator)
      · exact named _ registered.2 (List.mem_filter.mp (Grammar.longest_member _ _ identifier)).1
  | none =>
      cases bound : source.parameters.find? rest with
      | some found =>
          obtain ⟨index, count⟩ := found
          simp only [matched, bound, Except.ok.injEq, Prod.mk.injEq] at scanned
          obtain ⟨rfl, -⟩ := scanned
          obtain ⟨name, declared, -⟩ := source.parameters.find_name rest index count bound
          have inside := (List.getElem?_eq_some_iff.mp declared).1
          simpa [Template.Within, Template.operand, Action.Within] using inside
      | none =>
          have literal : source.scanLiteral start rest = .ok (template, length) := by
            simpa only [matched, bound] using scanned
          rcases Phrase.scan_literal_operand source start rest template length literal with ⟨_, _, rfl⟩ | ⟨_, rfl⟩ <;>
            simp [Template.Within, Template.operand, Action.Within]

end Source

section

variable [Numeric T] (grammar : Grammar T σ) (count : Nat)

structure Form.Admitted (form : Form T σ) : Prop where
  within : form.action.Within (Numeric.supported T) count
  known : grammar.Knows form

-- A node that a text can stand for: it reads a declared input, applies an operator that the type
-- supports, or uses what the grammar offers with as many arguments as that takes.
def Shape.Admitted : Shape T σ Unit → Prop
  | .parameter index => index < count
  | .member source => grammar.Offers (.member source)
  | .unary op _ _ => op.under (Numeric.supported T) = true
  | .binary op _ _ _ => op.under (Numeric.supported T) = true
  | .call routine args _ => grammar.Offers (.call routine) ∧ args.length = routine.arity
  | _ => True

def Expr.Admitted (e : Expr T σ) : Prop := e.Every fun shape => shape.outline.Admitted grammar count

namespace Phrase

theorem leaf_admitted (token : Token T σ) (admitted : token.form.Admitted grammar count) (e : Expr T σ)
    (leaf : token.leaf? = some e) : e.Admitted grammar count := by
  unfold Token.leaf? at leaf
  split at leaf
  · obtain rfl := Option.some.inj leaf
    exact .node _ trivial (by simp [Shape.children])
  · obtain rfl := Option.some.inj leaf
    exact .node _ trivial (by simp [Shape.children])
  · rename_i index action
    obtain rfl := Option.some.inj leaf
    have within := admitted.within
    rw [action] at within
    exact .node _ within (by simp [Shape.children])
  · rename_i source action
    obtain rfl := Option.some.inj leaf
    have offered := admitted.known source.name (by simp [action, Action.offered?])
    rw [action] at offered
    exact .node _ offered (by simp [Shape.children])
  · exact absurd leaf (by simp)

theorem combine_admitted (token : Token T σ) (admitted : token.form.Admitted grammar count) (args : List (Expr T σ))
    (below : ∀ arg ∈ args, Expr.Admitted grammar count arg) (e : Expr T σ) (combined : token.combine? args = some e) :
    e.Admitted grammar count := by
  have within := admitted.within
  unfold Token.combine? at combined
  split at combined
  case h_1 _ op operand action =>
    obtain rfl := Option.some.inj combined
    rw [action] at within
    exact .node _ within below
  case h_2 =>
    obtain rfl := Option.some.inj combined
    exact .node _ trivial below
  case h_3 _ op left right action =>
    obtain rfl := Option.some.inj combined
    rw [action] at within
    exact .node _ within below
  case h_4 =>
    obtain rfl := Option.some.inj combined
    exact .node _ trivial below
  case h_5 _ routine action =>
    split at combined
    · rename_i counted
      obtain rfl := Option.some.inj combined
      have offered := admitted.known routine.name (by simp [action, Action.offered?])
      rw [action] at offered
      exact .node _ ⟨offered, by simpa using counted⟩ below
    · exact absurd combined (by simp)
  case h_6 => exact absurd combined (by simp)

theorem admitted_builds (token : Token T σ) (admitted : token.form.Admitted grammar count) :
    Builds (fun shape => shape.outline.Admitted grammar count) token :=
  ⟨leaf_admitted grammar count token admitted, combine_admitted grammar count token admitted⟩

end Phrase

end

namespace Evaluator

variable [Numeric T] (settings : Settings T σ) (evaluator : Evaluator T σ) (built : settings.build = .ok evaluator)
  (parameters : Parameters) (expression : String)

include built

theorem tokens_admitted (token : Token T σ) (member : .ok token ∈ (evaluator.source parameters expression).tokens) :
    token.form.Admitted evaluator.grammar parameters.names.length ∧
      token.lone.form.Admitted evaluator.grammar parameters.names.length := by
  obtain ⟨place, rest, template, length, span, scanned, rfl⟩ := Phrase.tokens_from_scanned _ _ _ token member
  obtain ⟨known, alone⟩ := Phrase.carried_known evaluator.grammar (Grammar.built_orderly settings evaluator built) _
    (Phrase.scan_carried _ place rest template length scanned span)
  have within (form : Form T σ) (one : form = template.form ∨ template.alone = some form) :
      form.action.Within (Numeric.supported T) parameters.names.length :=
    Grammar.within_supported settings evaluator built _ _ ((evaluator.source parameters expression).scan_within
      settings.flags (Grammar.built_within settings evaluator built) place rest template length scanned form one)
  exact ⟨⟨within _ (.inl rfl), known⟩, ⟨within _ (Phrase.lone_form _), alone⟩⟩

theorem tree_admitted (e : Expr T σ) (found : evaluator.tree parameters expression = .ok e) :
    e.Admitted evaluator.grammar parameters.names.length := by
  obtain ⟨p, -, split, -, tree⟩ := Phrase.tree_sentence settings evaluator built parameters expression e found
  refine Phrase.tree_every _ p (fun token member => ?_) e tree
  have listed : .ok token ∈ (evaluator.source parameters expression).tokens := split ▸ List.mem_map_of_mem member
  obtain ⟨here, alone⟩ := tokens_admitted settings evaluator built parameters expression token listed
  exact ⟨Phrase.admitted_builds _ _ token here, Phrase.admitted_builds _ _ token.lone alone⟩

end Evaluator

end Formula
