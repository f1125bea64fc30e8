import Formula.Proofs.Grammar
import Formula.Proofs.Phrase

set_option autoImplicit false

namespace Formula.Phrase

variable {T σ : Type}

-- The tokens that a text of a grammar can be split into: names of the grammar, inputs, literals and
-- names that nobody knows.
inductive Carries (grammar : Grammar T σ) : Token T σ → Prop
  | operator (entry : Entry T σ) (known : entry ∈ grammar.operators) (span : Span) :
      Carries grammar (.ofTemplate entry.template span)
  | identifier (entry : Entry T σ) (known : entry ∈ grammar.identifiers) (span : Span) :
      Carries grammar (.ofTemplate entry.template span)
  | literal (name : String) (value : T) (span : Span) :
      Carries grammar (.ofTemplate (.operand name (.literal value)) span)
  | parameter (name : String) (index : Nat) (span : Span) :
      Carries grammar (.ofTemplate (.operand name (.parameter index)) span)
  | unknown (name : String) (span : Span) :
      Carries grammar (.ofTemplate (.operand name (.unknown name)) span)

def ProperTemplate (template : Template T σ) : Prop := ∀ span, Proper (.ofTemplate template span)

theorem punctuation_proper (name : String) (role : Role) (noOperator : role.isOperator = false)
    (noFunction : role ≠ .function) (noOperand : role ≠ .operand) :
    ProperTemplate (.punctuation name role : Template T σ) := by
  intro span
  constructor
  · intro operator
    exact absurd operator (by simp [Token.role, Token.ofTemplate, Template.punctuation, noOperator])
  · intro operator
    exact absurd operator (by simp [Token.role, Token.ofTemplate, Template.punctuation, noOperator])
  · intro function
    exact absurd function noFunction
  · simp [Token.ofTemplate, Template.punctuation]
  · intro operand
    exact absurd operand noOperand

theorem operand_proper (name : String) (action : Action T σ)
    (stands : ∀ span, (Token.ofTemplate (.operand name action) span).leaf?.isSome = true ∨
      ∃ missing, action = .unknown missing) :
    ProperTemplate (.operand name action) := by
  intro span
  constructor
  · simp [Token.role, Token.ofTemplate, Template.operand, Role.isOperator]
  · simp [Token.role, Token.ofTemplate, Template.operand, Role.isOperator]
  · simp [Token.role, Token.ofTemplate, Template.operand]
  · simp [Token.ofTemplate, Template.operand]
  · intro _ nothing
    rcases stands span with leaf | unknown
    · simp [nothing] at leaf
    · exact unknown

theorem function_proper (name : String) (action : Action T σ)
    (acts : (∃ routine, action = .call routine) ∨ action = .conditional ∨ ∃ conversion, action = .convert conversion) :
    ProperTemplate (.function name action) := by
  intro span
  constructor
  · simp [Token.role, Token.ofTemplate, Template.function, Role.isOperator]
  · simp [Token.role, Token.ofTemplate, Template.function, Role.isOperator]
  · exact fun role => ⟨role, acts⟩
  · simp [Token.ofTemplate, Template.function]
  · simp [Token.role, Token.ofTemplate, Template.function]

theorem before_proper (name : String) (op : UnaryOperator) :
    ProperTemplate (.before name (.unary op) unaryPrecedence : Template T σ) := by
  intro span
  have prefixed : (Token.ofTemplate (.before name (.unary op) unaryPrecedence : Template T σ) span).form.isPrefix =
      true := rfl
  constructor
  · intro role alone
    exact ⟨role, alone, by simp [Token.lone, prefixed]; rfl, by simp [Token.lone, prefixed]; rfl, rfl⟩
  · intro role binary
    exact absurd (prefixed.symm.trans binary) (by simp)
  · simp [Token.role, Token.ofTemplate, Template.before]
  · simp [Token.ofTemplate, Template.before]
  · simp [Token.role, Token.ofTemplate, Template.before]

theorem binary_proper (name : String) (role : Role) (level : Nat) (op : BinaryOperator)
    (alone : Option (Form T σ)) (known : (level, role) ∈ levels)
    (single : ∀ form, alone = some form →
      form.isPrefix = true ∧ form.role = .rightOperator ∧ form.precedence = unaryPrecedence) :
    ProperTemplate ⟨⟨name, role, level, .binary op⟩, alone⟩ := by
  intro span
  have infixed : (⟨name, role, level, .binary op⟩ : Form T σ).isPrefix = false := by simp [Form.isPrefix]
  have operator : role.isOperator = true := by
    simp only [levels, List.mem_cons, Prod.mk.injEq, List.not_mem_nil, or_false] at known
    rcases known with h | h | h | h | h
    all_goals simp [h.2, Role.isOperator]
  constructor
  · intro _ lone
    cases alone with
    | none => simp [Token.lone, Token.ofTemplate, infixed] at lone
    | some form =>
        obtain ⟨isPrefix, right, precedence⟩ := single form rfl
        have taken : (Token.ofTemplate ⟨⟨name, role, level, .binary op⟩, some form⟩ span).lone =
            ⟨span, form, some form, none⟩ := by
          simp [Token.lone, Token.ofTemplate, infixed]
        exact ⟨operator, by simpa [taken] using isPrefix, by simpa [taken, Token.role] using right,
          by simpa [taken] using precedence, rfl⟩
  · intro _ _
    exact ⟨⟨op, rfl⟩, known, rfl⟩
  · intro function
    obtain rfl : role = .function := function
    exact absurd operator (by simp [Role.isOperator])
  · intro form present
    exact (single form present).1
  · intro operand
    obtain rfl : role = .operand := operand
    exact absurd operator (by simp [Role.isOperator])

theorem builtin_operators_proper (flags : Flags) :
    ∀ template ∈ Grammar.builtinOperators flags, ProperTemplate (template : Template T σ) := by
  apply Grammar.builtin_operators_each
  · simp only [Grammar.punctuationTemplates, List.forall_mem_cons]
    exact ⟨punctuation_proper _ _ rfl (by simp) (by simp), punctuation_proper _ _ rfl (by simp) (by simp),
      punctuation_proper _ _ rfl (by simp) (by simp), by simp⟩
  · intro _
    simp only [Grammar.numericTemplates, List.forall_mem_cons]
    have single (name : String) (action : Action T σ)
        (isPrefix : (⟨name, .rightOperator, unaryPrecedence, action⟩ : Form T σ).isPrefix = true) :
        ∀ form, some (⟨name, .rightOperator, unaryPrecedence, action⟩ : Form T σ) = some form →
          form.isPrefix = true ∧ form.role = .rightOperator ∧ form.precedence = unaryPrecedence := by
      rintro form ⟨⟩
      exact ⟨isPrefix, rfl, rfl⟩
    exact ⟨binary_proper _ _ _ _ _ (by simp [levels]) (single _ _ rfl),
      binary_proper _ _ _ _ _ (by simp [levels]) (single _ _ rfl),
      binary_proper _ _ _ _ _ (by simp [levels]) (by simp), binary_proper _ _ _ _ _ (by simp [levels]) (by simp),
      binary_proper _ _ _ _ _ (by simp [levels]) (by simp), by simp⟩
  · intro _
    simp only [Grammar.decimalTemplates, List.forall_mem_cons]
    exact ⟨binary_proper _ _ _ _ _ (by simp [levels]) (by simp),
      binary_proper _ _ _ _ _ (by simp [levels]) (by simp),
      binary_proper _ _ _ _ _ (by simp [levels]) (by simp), by simp⟩
  · intro _
    simp only [Grammar.integerTemplates, List.forall_mem_cons]
    exact ⟨binary_proper _ _ _ _ _ (by simp [levels]) (by simp),
      binary_proper _ _ _ _ _ (by simp [levels]) (by simp), binary_proper _ _ _ _ _ (by simp [levels]) (by simp),
      binary_proper _ _ _ _ _ (by simp [levels]) (by simp), binary_proper _ _ _ _ _ (by simp [levels]) (by simp),
      before_proper _ _, before_proper _ _, by simp⟩

theorem builtin_identifiers_proper (template : Template T σ) (member : template ∈ Grammar.builtinIdentifiers) :
    ProperTemplate template := by
  simp only [Grammar.builtinIdentifiers, List.mem_cons, List.not_mem_nil, or_false] at member
  rcases member with rfl | rfl
  · exact function_proper _ _ (.inr (.inl rfl))
  · exact function_proper _ _ (.inr (.inr ⟨_, rfl⟩))

theorem offer_proper (name : String) (offer : Offer T σ) : ProperTemplate (Extension.template name offer) := by
  cases offer with
  | routine kind arity body => exact function_proper _ _ (.inl ⟨_, rfl⟩)
  | constant value => exact operand_proper _ _ fun _ => .inl rfl
  | member source => exact operand_proper _ _ fun _ => .inl rfl

def Vetted (grammar : Grammar T σ) : Prop :=
  (∀ entry ∈ grammar.operators, ProperTemplate entry.template) ∧
    ∀ entry ∈ grammar.identifiers, ProperTemplate entry.template

theorem build_vetted [Numeric T] (settings : Settings T σ) (evaluator : Evaluator T σ)
    (built : settings.build = .ok evaluator) : Vetted evaluator.grammar :=
  Grammar.built_templates settings evaluator built (builtin_operators_proper _) builtin_identifiers_proper
    fun name offer _ => offer_proper name offer

theorem carried_proper [Numeric T] (settings : Settings T σ) (evaluator : Evaluator T σ)
    (built : settings.build = .ok evaluator) (token : Token T σ) (carried : Carries evaluator.grammar token) :
    Proper token := by
  have vetted := build_vetted settings evaluator built
  cases carried with
  | operator entry known span => exact vetted.1 entry known span
  | identifier entry known span => exact vetted.2 entry known span
  | literal name value span => exact operand_proper name _ (fun _ => .inl rfl) span
  | parameter name index span => exact operand_proper name _ (fun _ => .inl rfl) span
  | unknown name span => exact operand_proper name _ (fun _ => .inr ⟨name, rfl⟩) span

end Formula.Phrase
