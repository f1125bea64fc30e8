import Formula.Numeric.Integer
import Formula.Proofs.Phrase.Building

set_option autoImplicit false

namespace Formula

variable {T σ : Type}

def Action.Single (action : Action T σ) : Prop :=
  (∃ op, action = .unary op) ∨ ∃ conversion, action = .convert conversion

inductive Template.IsOperator : Template T σ → Prop
  | before (name : String) (action : Action T σ) (precedence : Nat) (single : action.Single) :
      IsOperator (.before name action precedence)
  | left (name : String) (op : BinaryOperator) (precedence : Nat) (alone : Option (Template T σ))
      (prefixed : ∀ template ∈ alone, ∃ name action precedence,
        action.Single ∧ template = .before name action precedence) :
      IsOperator (.leftBinary name op precedence (alone.map Template.form))
  | right (name : String) (op : BinaryOperator) (precedence : Nat) (alone : Option (Template T σ))
      (prefixed : ∀ template ∈ alone, ∃ name action precedence,
        action.Single ∧ template = .before name action precedence) :
      IsOperator (.rightBinary name op precedence (alone.map Template.form))

inductive Grammar.Extended (base : Grammar T σ) : Grammar T σ → Prop
  | base : Extended base base
  | operator (grammar next : Grammar T σ) (template : Template T σ) (extended : Extended base grammar)
      (operator : template.IsOperator) (registered : grammar.registerOperator template = .ok next) : Extended base next

theorem before_alone (name : String) (action : Action T σ) (precedence : Nat) (single : action.Single) :
    (Template.before name action precedence).form.isPrefix = true := by
  rcases single with ⟨op, rfl⟩ | ⟨conversion, rfl⟩ <;> rfl

namespace Phrase

def UsableTemplate (template : Template T σ) : Prop := ∀ span, Usable (.ofTemplate template span)

theorem binary_usable (name : String) (role : Role) (op : BinaryOperator) (precedence : Nat)
    (alone : Option (Template T σ)) (operator : role.isOperator = true)
    (prefixed : ∀ template ∈ alone, ∃ name action precedence,
      action.Single ∧ template = .before name action precedence) :
    UsableTemplate ⟨⟨name, role, precedence, .binary op⟩, alone.map Template.form⟩ := by
  intro span
  constructor
  · intro form present
    obtain ⟨template, held, rfl⟩ := Option.map_eq_some_iff.mp present
    obtain ⟨name, action, precedence, single, rfl⟩ := prefixed template held
    exact before_alone name action precedence single
  · exact fun _ _ => ⟨op, rfl⟩
  · intro function
    obtain rfl : role = .function := function
    exact absurd operator (by simp [Role.isOperator])
  · intro operand
    obtain rfl : role = .operand := operand
    exact absurd operator (by simp [Role.isOperator])
  · exact fun _ => rfl

theorem operator_usable (template : Template T σ) (operator : template.IsOperator) : UsableTemplate template := by
  cases operator with
  | before name action precedence single =>
      intro span
      constructor
      · intro form present
        exact absurd present (by simp [Token.ofTemplate, Template.before])
      · intro _ binds
        exact absurd (before_alone name action precedence single) (by simpa [Token.ofTemplate] using binds)
      · intro function
        exact absurd function (by simp [Token.role, Token.ofTemplate, Template.before])
      · intro operand
        exact absurd operand (by simp [Token.role, Token.ofTemplate, Template.before])
      · exact fun _ => rfl
  | left name op precedence alone prefixed => exact binary_usable name .leftOperator op precedence alone rfl prefixed
  | right name op precedence alone prefixed => exact binary_usable name .rightOperator op precedence alone rfl prefixed

theorem extended_usable [Numeric T] (settings : Settings T σ) (evaluator : Evaluator T σ)
    (built : settings.build = .ok evaluator) (grammar : Grammar T σ) (extended : evaluator.grammar.Extended grammar) :
    (∀ entry ∈ grammar.operators, UsableTemplate entry.template) ∧
      ∀ entry ∈ grammar.identifiers, UsableTemplate entry.template := by
  induction extended with
  | base =>
      obtain ⟨operators, identifiers⟩ := build_vetted settings evaluator built
      exact ⟨fun entry known span => (operators entry known span).usable,
        fun entry known span => (identifiers entry known span).usable⟩
  | operator grammar next template _ operator registered ih =>
      obtain ⟨-, rfl⟩ := Grammar.register_operator_ok grammar next template registered
      exact ⟨List.forall_mem_append.mpr ⟨ih.1, List.forall_mem_singleton.mpr (operator_usable template operator)⟩, ih.2⟩

theorem carried_usable [Numeric T] (settings : Settings T σ) (evaluator : Evaluator T σ)
    (built : settings.build = .ok evaluator) (grammar : Grammar T σ) (extended : evaluator.grammar.Extended grammar)
    (token : Token T σ) (carried : Carries grammar token) : Usable token := by
  obtain ⟨operators, identifiers⟩ := extended_usable settings evaluator built grammar extended
  cases carried with
  | operator entry known span => exact operators entry known span
  | identifier entry known span => exact identifiers entry known span
  | literal name value span => exact (operand_proper name _ (fun _ => .inl rfl) span).usable
  | parameter name index span => exact (operand_proper name _ (fun _ => .inl rfl) span).usable
  | unknown name span => exact (operand_proper name _ (fun _ => .inr ⟨name, rfl⟩) span).usable

-- Under any table a sentence is taken in whole. If no operator lets the one directly before it go, what leaves is some
-- phrase with the same text, every operator and function after what it is applied to; its fold is the phrase's tree,
-- or stops at a name that nobody knows.
theorem operators_follow_operands [Numeric T] (settings : Settings T σ) (evaluator : Evaluator T σ)
    (built : settings.build = .ok evaluator) (grammar : Grammar T σ) (extended : evaluator.grammar.Extended grammar)
    (expression : String) (p : Phrase T σ) (formed : p.Formed) (matched : CallsMatch p.postorder)
    (carried : ∀ token ∈ p.tokens, Carries grammar token) :
    (∃ emitted : List (Token T σ), Postfix.order expression (p.tokens.map .ok) = emitted.map .ok) ∧
    (Patient p.tokens → ∃ q : Phrase T σ, q.Formed ∧ q.tokens = p.tokens ∧
      Postfix.order expression (p.tokens.map .ok) = q.postorder.map .ok ∧
      ((∃ e, q.tree? = some e ∧ foldTree (Postfix.order expression (p.tokens.map .ok)) = .ok e) ∨
        ∃ token ∈ q.postorder, ∃ name, token.form.action = .unknown name ∧
          foldTree (Postfix.order expression (p.tokens.map .ok)) =
            .error (.build token (.eval (.unknownIdentifier name))))) := by
  have usable := fun token member =>
    carried_usable settings evaluator built grammar extended token (carried token member)
  constructor
  · obtain ⟨out, next, taken, -, finished⟩ := sentence_taken expression p formed
    have ordered := Takes.order _ next p.tokens out taken []
    rw [List.append_nil, Order.orderFrom, finished, ← List.map_append] at ordered
    exact ⟨_, ordered⟩
  · intro patient
    obtain ⟨q, qFormed, written, ordered⟩ :=
      patient_postorder expression p formed (fun token member => (usable token member).lone) patient
    have same : q.postorder.Perm p.postorder := by
      have leaves := postorder_leaves q qFormed
      rw [written] at leaves
      exact leaves.trans (postorder_leaves p formed).symm
    have qMatched : CallsMatch q.postorder := fun token member => matched token (same.mem_iff.mp member)
    refine ⟨q, qFormed, written, ordered, ?_⟩
    rw [ordered]
    exact fold_postorder q qFormed (written ▸ usable) qMatched

-- A complement that binds less tightly than multiplication.
def looseTemplate : Template (Integer .signed) Unit := .before "~" (.unary .complement) 5

def timesTemplate : Template (Integer .signed) Unit := .leftBinary "*" .mul 20 none

def digit (value : Int) (start : Nat) : Token (Integer .signed) Unit :=
  .ofTemplate (.operand "digit" (.literal (Integer.ofBits .signed value))) ⟨start, start + 1⟩

-- The tokens of `~2*3` and of `2*~3`.
def looseFirst : Phrase (Integer .signed) Unit :=
  .before (.ofTemplate looseTemplate ⟨0, 1⟩)
    (.between (.operand (digit 2 1)) (.ofTemplate timesTemplate ⟨2, 3⟩) (.operand (digit 3 3)))

def looseLast : Phrase (Integer .signed) Unit :=
  .between (.operand (digit 2 0)) (.ofTemplate timesTemplate ⟨1, 2⟩)
    (.before (.ofTemplate looseTemplate ⟨2, 3⟩) (.operand (digit 3 3)))

def looseSettings : Settings (Integer .signed) Unit := Settings.ofFlags ⟨true, false, false, false⟩

theorem loose_registered :
    ∃ evaluator grammar, looseSettings.build = .ok evaluator ∧ evaluator.grammar.Extended grammar ∧
      (∀ span, Carries grammar (.ofTemplate timesTemplate span)) ∧
      (∀ span, Carries grammar (.ofTemplate looseTemplate span)) ∧
      ∀ value start, Carries grammar (digit value start) := by
  refine ⟨_, _, rfl, .operator _ _ looseTemplate .base (.before _ _ _ (.inl ⟨_, rfl⟩)) rfl, ?_, ?_, ?_⟩
  · exact .operator ⟨['*'], timesTemplate⟩ (List.mem_of_getElem? (i := 5) rfl)
  · exact .operator ⟨['~'], looseTemplate⟩ (List.mem_of_getElem? (i := 8) rfl)
  · exact fun value start => .literal "digit" (Integer.ofBits .signed value) _

theorem loose_first_folds :
    ∃ evaluator grammar, looseSettings.build = .ok evaluator ∧ evaluator.grammar.Extended grammar ∧
      (∀ token ∈ looseFirst.tokens, Carries grammar token) ∧ Patient looseFirst.tokens ∧
      ∃ q : Phrase (Integer .signed) Unit, q.Formed ∧ q.tokens = looseFirst.tokens ∧
        Postfix.order "~2*3" (looseFirst.tokens.map .ok) = q.postorder.map .ok ∧
        ∃ e, foldTree (Postfix.order "~2*3" (looseFirst.tokens.map .ok)) = .ok e := by
  obtain ⟨evaluator, grammar, built, extended, times, loose, digits⟩ := loose_registered
  have formed : looseFirst.Formed := ⟨rfl, rfl, rfl, rfl, rfl, rfl⟩
  have matched : CallsMatch looseFirst.postorder := by
    simp [CallsMatch, looseFirst, postorder, digit, Token.role, Token.ofTemplate, Template.operand, timesTemplate,
      Template.leftBinary, looseTemplate, Template.before, Token.lone, Form.isPrefix, Role.isOperator]
  have carried : ∀ token ∈ looseFirst.tokens, Carries grammar token := by
    simp [looseFirst, tokens, times, loose, digits]
  have patient : Patient looseFirst.tokens :=
    .cons_cons (fun operator => absurd operator (by decide)) (.cons_cons (fun _ => rfl)
      (.cons_cons (fun operator => absurd operator (by decide)) (.singleton _)))
  obtain ⟨q, qFormed, written, ordered, -⟩ := (operators_follow_operands looseSettings evaluator built grammar extended
    "~2*3" looseFirst formed matched carried).2 patient
  exact ⟨evaluator, grammar, built, extended, carried, patient, q, qFormed, written, ordered, _, rfl⟩

-- The operator before the digit lets multiplication go while it still waits for that digit.
theorem loose_last_misplaced :
    ∃ evaluator grammar, looseSettings.build = .ok evaluator ∧ evaluator.grammar.Extended grammar ∧
      looseLast.Formed ∧ CallsMatch looseLast.postorder ∧ (∀ token ∈ looseLast.tokens, Carries grammar token) ∧
      Postfix.order "2*~3" (looseLast.tokens.map .ok) =
        [digit 2 0, .ofTemplate timesTemplate ⟨1, 2⟩, digit 3 3, .ofTemplate looseTemplate ⟨2, 3⟩].map .ok ∧
      foldTree (Postfix.order "2*~3" (looseLast.tokens.map .ok)) =
        .error (.build (.ofTemplate timesTemplate ⟨1, 2⟩) (.eval (.malformed "'*' is missing an operand"))) := by
  obtain ⟨evaluator, grammar, built, extended, times, loose, digits⟩ := loose_registered
  refine ⟨evaluator, grammar, built, extended, ⟨rfl, rfl, rfl, rfl, rfl, rfl⟩, ?_, ?_, rfl, rfl⟩
  · simp [CallsMatch, looseLast, postorder, digit, Token.role, Token.ofTemplate, Template.operand, timesTemplate,
      Template.leftBinary, looseTemplate, Template.before, Token.lone, Form.isPrefix, Role.isOperator]
  · simp [looseLast, tokens, times, loose, digits]

end Phrase

end Formula
