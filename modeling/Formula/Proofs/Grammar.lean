import Formula.Evaluator
import Mathlib.Data.List.Pairwise

set_option autoImplicit false

namespace Formula

variable {T σ : Type}

namespace Grammar

theorem register_operator_ok (grammar next : Grammar T σ) (template : Template T σ)
    (registered : grammar.registerOperator template = .ok next) :
    grammar.isReserved template.name = false ∧
      next = { grammar with
        reserved := grammar.reserved ++ [grammar.key template.name]
        operators := grammar.operators ++ [grammar.entry template] } := by
  unfold registerOperator at registered
  split at registered
  · exact absurd registered (by simp)
  · rename_i free
    exact ⟨by simpa using free, (Except.ok.inj registered).symm⟩

theorem register_identifier_ok (grammar next : Grammar T σ) (template : Template T σ)
    (registered : grammar.registerIdentifier template = .ok next) :
    Text.isQualified template.name.toList = true ∧ grammar.isReserved template.name = false ∧
      next = { grammar with
        reserved := grammar.reserved ++ [grammar.key template.name]
        identifiers := grammar.identifiers ++ [grammar.entry template] } := by
  unfold registerIdentifier at registered
  split at registered
  · exact absurd registered (by simp)
  · rename_i qualified
    split at registered
    · exact absurd registered (by simp)
    · rename_i free
      exact ⟨by simpa using qualified, by simpa using free, (Except.ok.inj registered).symm⟩

theorem fold_keeps {α : Type} {P : Grammar T σ → Prop} (register : Grammar T σ → α → Except GrammarError (Grammar T σ))
    (items : List α) (keeps : ∀ item ∈ items, ∀ grammar next, P grammar → register grammar item = .ok next → P next)
    (grammar last : Grammar T σ) (holds : P grammar) (ran : items.foldlM register grammar = .ok last) : P last := by
  induction items generalizing grammar with
  | nil =>
      obtain rfl : grammar = last := Except.ok.inj ran
      exact holds
  | cons item rest ih =>
      rw [List.foldlM_cons] at ran
      cases registered : register grammar item with
      | error error => simp [registered, bind, Except.bind] at ran
      | ok next =>
          rw [registered] at ran
          exact ih (fun item member => keeps item (by simp [member])) next
            (keeps item (by simp) grammar next holds registered) ran

theorem register_from_keeps {P : Grammar T σ → Prop} (extension : Extension T σ)
    (keeps : ∀ name offer grammar next, P grammar →
      grammar.registerIdentifier (Extension.template name offer) = .ok next → P next)
    (offers : List (String × Offer T σ)) (grammar : Grammar T σ) (count : Nat) (last : Grammar T σ × Nat)
    (holds : P grammar) (ran : extension.registerFrom grammar count offers = .ok last) : P last.1 := by
  induction offers generalizing grammar count with
  | nil =>
      obtain rfl := Except.ok.inj ran
      exact holds
  | cons named rest ih =>
      obtain ⟨name, offer⟩ := named
      rw [Extension.registerFrom] at ran
      split at ran
      · exact ih grammar count holds ran
      · split at ran
        · rename_i next registered
          exact ih next (count + 1) (keeps _ offer grammar next holds registered) ran
        · exact absurd ran (by simp)

theorem standard_keeps [Numeric T] {P : Grammar T σ → Prop} (flags : Flags) (reader : Reader T)
    (whitespace : List Char) (blank : P ⟨flags, [], [], [], whitespace, reader⟩)
    (operator : ∀ template ∈ builtinOperators flags, ∀ grammar next, P grammar →
      grammar.registerOperator template = .ok next → P next)
    (identifier : ∀ template ∈ builtinIdentifiers, ∀ grammar next, P grammar →
      grammar.registerIdentifier template = .ok next → P next)
    (grammar : Grammar T σ) (built : standard flags reader whitespace = .ok grammar) : P grammar := by
  unfold standard at built
  simp only [bind, Except.bind, throw, throwThe, MonadExceptOf.throw] at built
  split at built
  · exact absurd built (by simp)
  · split at built
    · exact absurd built (by simp)
    · split at built
      · exact absurd built (by simp)
      · rename_i operators ran
        have signs := fold_keeps registerOperator (builtinOperators flags) operator _ operators blank ran
        exact fold_keeps registerIdentifier builtinIdentifiers identifier operators grammar signs built

theorem built_induction [Numeric T] {P : Grammar T σ → Prop} (settings : Settings T σ) (evaluator : Evaluator T σ)
    (built : settings.build = .ok evaluator)
    (blank : ∀ reader, P ⟨settings.flags, [], [], [], settings.whitespace, reader⟩)
    (operator : ∀ template ∈ builtinOperators settings.flags, ∀ grammar next, P grammar →
      grammar.registerOperator template = .ok next → P next)
    (identifier : ∀ template ∈ builtinIdentifiers, ∀ grammar next, P grammar →
      grammar.registerIdentifier template = .ok next → P next)
    (offer : ∀ name offer grammar next, P grammar →
      grammar.registerIdentifier (Extension.template name offer) = .ok next → P next) : P evaluator.grammar := by
  unfold Settings.build at built
  simp only [bind, Except.bind, pure, Except.pure] at built
  split at built
  · exact absurd built (by simp)
  · rename_i standard ran
    split at built
    · exact absurd built (by simp)
    · rename_i grammar registered
      obtain rfl := Except.ok.inj built
      have start := standard_keeps _ _ _ (blank _) operator identifier standard ran
      refine fold_keeps _ settings.extensions (fun extension _ before next holds ran => ?_) standard grammar start
        registered
      cases outcome : extension.register before with
      | error error => simp [outcome, Except.map] at ran
      | ok last =>
          obtain rfl : last.1 = next := by simpa [outcome, Except.map] using ran
          exact register_from_keeps extension offer extension.offers before 0 last holds outcome

def EveryName (grammar : Grammar T σ) (holds : Template T σ → Prop) : Prop :=
  (∀ entry ∈ grammar.operators, holds entry.template) ∧ ∀ entry ∈ grammar.identifiers, holds entry.template

theorem built_templates [Numeric T] {P : Template T σ → Prop} (settings : Settings T σ) (evaluator : Evaluator T σ)
    (built : settings.build = .ok evaluator) (operator : ∀ template ∈ builtinOperators settings.flags, P template)
    (identifier : ∀ template ∈ builtinIdentifiers, P template)
    (offer : ∀ name offer, Text.isQualified (Extension.template name offer : Template T σ).name.toList = true →
      P (Extension.template name offer)) : evaluator.grammar.EveryName P := by
  have add (entries : List (Entry T σ)) (grammar : Grammar T σ) (template : Template T σ)
      (old : ∀ entry ∈ entries, P entry.template) (new : P template) :
      ∀ entry ∈ entries ++ [grammar.entry template], P entry.template := by
    simp only [List.forall_mem_append, List.forall_mem_singleton]
    exact ⟨old, new⟩
  apply built_induction (P := fun grammar => grammar.EveryName P) settings evaluator built
  · exact fun reader => ⟨by simp, by simp⟩
  · intro template member grammar next holds registered
    obtain ⟨-, rfl⟩ := register_operator_ok grammar next template registered
    exact ⟨add _ grammar template holds.1 (operator template member), holds.2⟩
  · intro template member grammar next holds registered
    obtain ⟨-, -, rfl⟩ := register_identifier_ok grammar next template registered
    exact ⟨holds.1, add _ grammar template holds.2 (identifier template member)⟩
  · intro name source grammar next holds registered
    obtain ⟨qualified, -, rfl⟩ := register_identifier_ok grammar next _ registered
    exact ⟨holds.1, add _ grammar _ holds.2 (offer name source qualified)⟩

end Grammar

def Action.offered? : Action T σ → Option String
  | .call routine => some routine.name
  | .member source => some source.name
  | .bound name _ => some name
  | _ => none

-- A name of the language itself, which stands for nothing that a host offers.
def Template.Plain (template : Template T σ) : Prop :=
  ∀ form, form = template.form ∨ template.alone = some form → form.action.offered? = none

namespace Grammar

-- Names stand under keys of their own, and what a host offers goes by the name it was offered under.
structure Orderly (grammar : Grammar T σ) : Prop where
  reserved : ∀ entry ∈ grammar.identifiers, grammar.key entry.template.name ∈ grammar.reserved
  apart : grammar.identifiers.Pairwise fun a b => grammar.key a.template.name ≠ grammar.key b.template.name
  named : ∀ entry ∈ grammar.identifiers, ∀ name, entry.template.form.action.offered? = some name →
    entry.template.name = name
  single : ∀ entry ∈ grammar.identifiers, entry.template.alone = none
  operators : ∀ entry ∈ grammar.operators, entry.template.Plain

theorem operator_orderly (grammar next : Grammar T σ) (template : Template T σ)
    (plain : template.Plain) (orderly : grammar.Orderly) (registered : grammar.registerOperator template = .ok next) :
    next.Orderly := by
  obtain ⟨-, rfl⟩ := register_operator_ok grammar next template registered
  refine ⟨?_, orderly.apart, orderly.named, orderly.single, ?_⟩
  · intro entry member
    exact List.mem_append_left _ (orderly.reserved entry member)
  · intro entry member
    rcases List.mem_append.mp member with old | fresh
    · exact orderly.operators entry old
    · obtain rfl := List.mem_singleton.mp fresh
      exact plain

theorem identifier_orderly (grammar next : Grammar T σ) (template : Template T σ)
    (named : ∀ name, template.form.action.offered? = some name → template.name = name)
    (single : template.alone = none) (orderly : grammar.Orderly)
    (registered : grammar.registerIdentifier template = .ok next) : next.Orderly := by
  obtain ⟨-, free, rfl⟩ := register_identifier_ok grammar next template registered
  have fresh : ∀ entry ∈ grammar.identifiers, grammar.key entry.template.name ≠ grammar.key template.name := by
    intro entry member same
    have taken := orderly.reserved entry member
    rw [same] at taken
    simp [isReserved, taken] at free
  refine ⟨?_, ?_, ?_, ?_, orderly.operators⟩
  · intro entry member
    rcases List.mem_append.mp member with old | new
    · exact List.mem_append_left _ (orderly.reserved entry old)
    · obtain rfl := List.mem_singleton.mp new
      exact List.mem_append_right _ (List.mem_singleton.mpr rfl)
  · rw [List.pairwise_append]
    refine ⟨orderly.apart, List.pairwise_singleton _ _, ?_⟩
    intro a memberA b memberB
    obtain rfl := List.mem_singleton.mp memberB
    exact fresh a memberA
  · intro entry member
    rcases List.mem_append.mp member with old | new
    · exact orderly.named entry old
    · obtain rfl := List.mem_singleton.mp new
      exact named
  · intro entry member
    rcases List.mem_append.mp member with old | new
    · exact orderly.single entry old
    · obtain rfl := List.mem_singleton.mp new
      exact single

theorem builtin_operators_each {P : Template T σ → Prop} (flags : Flags)
    (punctuation : ∀ template ∈ punctuationTemplates, P template)
    (numeric : flags.numeric = true → ∀ template ∈ numericTemplates, P template)
    (decimal : flags.decimal = true → ∀ template ∈ decimalTemplates, P template)
    (integer : flags.integer = true → ∀ template ∈ integerTemplates, P template) :
    ∀ template ∈ builtinOperators flags, P template := by
  intro template member
  simp only [builtinOperators, List.mem_append, List.mem_ite_nil_right] at member
  rcases member with ((member | ⟨enabled, member⟩) | ⟨enabled, member⟩) | ⟨enabled, member⟩
  · exact punctuation template member
  · exact numeric enabled template member
  · exact decimal enabled template member
  · exact integer enabled template member

theorem builtin_operators_plain (flags : Flags) : ∀ template ∈ builtinOperators flags, (template : Template T σ).Plain := by
  apply builtin_operators_each
  · simp [punctuationTemplates, Template.Plain, Template.punctuation, Action.offered?]
  · simp [numericTemplates, Template.Plain, Template.leftBinary, Action.offered?]
  · simp [decimalTemplates, Template.Plain, Template.leftBinary, Template.rightBinary, Action.offered?]
  · simp [integerTemplates, Template.Plain, Template.leftBinary, Template.before, Action.offered?]

theorem built_orderly [Numeric T] (settings : Settings T σ) (evaluator : Evaluator T σ)
    (built : settings.build = .ok evaluator) : evaluator.grammar.Orderly := by
  apply built_induction settings evaluator built
  · exact fun reader => ⟨by simp, by simp, by simp, by simp, by simp⟩
  · intro template member grammar next
    exact operator_orderly grammar next template (builtin_operators_plain _ template member)
  · intro template member grammar next
    simp only [builtinIdentifiers, List.mem_cons, List.not_mem_nil, or_false] at member
    rcases member with rfl | rfl
    · exact identifier_orderly grammar next _ (by simp [Template.function, Action.offered?]) rfl
    · exact identifier_orderly grammar next _ (by simp [Template.function, Action.offered?]) rfl
  · intro name offer grammar next
    cases offer with
    | routine kind arity body =>
        exact identifier_orderly grammar next _ (fun other same => Option.some.inj same) rfl
    | constant value => exact identifier_orderly grammar next _ (fun other same => Option.some.inj same) rfl
    | member source => exact identifier_orderly grammar next _ (fun other same => Option.some.inj same) rfl

theorem key_flags (first second : Grammar T σ) (flags : second.flags = first.flags) : second.key = first.key := by
  funext name
  rw [key, key, caseSensitive, caseSensitive, flags]

theorem entry_unique (grammar : Grammar T σ) (orderly : grammar.Orderly) (a b : Entry T σ)
    (knownA : a ∈ grammar.identifiers) (knownB : b ∈ grammar.identifiers)
    (same : grammar.key a.template.name = grammar.key b.template.name) : a = b := by
  by_contra different
  have symm : Std.Symm fun a b : Entry T σ => grammar.key a.template.name ≠ grammar.key b.template.name :=
    ⟨fun _ _ different => different.symm⟩
  exact orderly.apart.forall knownA knownB different same

def Offers (grammar : Grammar T σ) (action : Action T σ) : Prop :=
  ∃ entry ∈ grammar.identifiers, entry.template.form.action = action

theorem offers_one (grammar : Grammar T σ) (orderly : grammar.Orderly) (a b : Action T σ) (name : String)
    (offersA : grammar.Offers a) (offersB : grammar.Offers b) (nameA : a.offered? = some name)
    (nameB : b.offered? = some name) : a = b := by
  obtain ⟨first, memberA, rfl⟩ := offersA
  obtain ⟨second, memberB, rfl⟩ := offersB
  rw [grammar.entry_unique orderly first second memberA memberB]
  rw [orderly.named first memberA name nameA, orderly.named second memberB name nameB]

end Grammar

end Formula
