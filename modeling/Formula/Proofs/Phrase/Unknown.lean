import Formula.Proofs.Grammar.Inputs

set_option autoImplicit false

namespace Formula

variable {T σ : Type}

def Token.unknown (name : String) (span : Span) : Token T σ := .ofTemplate (.operand name (.unknown name)) span

def Action.Known (action : Action T σ) : Prop := ∀ name, action ≠ .unknown name

namespace Grammar

theorem builtin_operators_known (flags : Flags) :
    ∀ template ∈ builtinOperators flags, (template : Template T σ).form.action.Known := by
  apply builtin_operators_each
  · simp [punctuationTemplates, Template.punctuation, Action.Known]
  · simp [numericTemplates, Template.leftBinary, Action.Known]
  · simp [decimalTemplates, Template.leftBinary, Template.rightBinary, Action.Known]
  · simp [integerTemplates, Template.leftBinary, Template.before, Action.Known]

theorem built_known [Numeric T] (settings : Settings T σ) (evaluator : Evaluator T σ)
    (built : settings.build = .ok evaluator) : evaluator.grammar.EveryName fun template => template.form.action.Known := by
  apply built_templates settings evaluator built (builtin_operators_known _)
  · simp [builtinIdentifiers, Template.function, Action.Known]
  · intro name offer _
    cases offer <;> simp [Extension.template, Template.function, Template.operand, Action.Known]

end Grammar

namespace Source

def strict (source : Source T σ) : Source T σ := { source with allowUnknown := false }

def lenient (source : Source T σ) : Source T σ := { source with allowUnknown := true }

-- What the two find at one place: the same, or a name that one of them lets through and the other refuses.
inductive Deferred : Except ParseError (Template T σ × Nat) → Except ParseError (Template T σ × Nat) → Prop
  | found (template : Template T σ) (length : Nat) (known : template.form.action.Known) :
      Deferred (.ok (template, length)) (.ok (template, length))
  | refused (error : ParseError) (other : error.kind ≠ .unknownIdentifier) : Deferred (.error error) (.error error)
  | unknown (error : ParseError) (name : String) (length : Nat) (kind : error.kind = .unknownIdentifier) :
      Deferred (.error error) (.ok (.operand name (.unknown name), length))

variable (source : Source T σ)

theorem unknown_deferred (start : Nat) (rest : List Char) :
    Deferred (source.strict.scanUnknown start rest) (source.lenient.scanUnknown start rest) := by
  by_cases word : rest.head?.any Text.isIdentifierStart = true
  · simp only [scanUnknown, word, if_true, strict, lenient]
    exact .unknown _ _ _ rfl
  · simp only [scanUnknown, word]
    exact .refused _ (by simp [errorOver])

theorem literal_deferred (start : Nat) (rest : List Char) :
    Deferred (source.strict.scanLiteral start rest) (source.lenient.scanLiteral start rest) := by
  have unknown := source.unknown_deferred start rest
  have grammar : source.strict.grammar = source.lenient.grammar := rfl
  have text : source.strict.text = source.lenient.text := rfl
  rw [scanLiteral, scanLiteral, grammar, text]
  cases source.lenient.grammar.read source.lenient.text start with
  | error details => exact .refused _ (by simp [errorOver])
  | ok found =>
      rcases found with _ | ⟨value, stop⟩
      · exact unknown
      · by_cases forward : start < stop
        · simp only [forward, if_true]
          cases Text.charactersIn? (stop - start) rest with
          | none => exact .refused _ (by simp [errorOver])
          | some length => exact .found _ _ (by simp [Action.Known, Template.operand])
        · simp only [forward, if_false]
          exact unknown

variable (known : source.grammar.EveryName fun template => template.form.action.Known)

include known

theorem scan_deferred (start : Nat) (rest : List Char) :
    Deferred (source.strict.scan start rest) (source.lenient.scan start rest) := by
  have literal := source.literal_deferred start rest
  have grammar : source.strict.grammar = source.lenient.grammar := rfl
  have parameters : source.strict.parameters = source.lenient.parameters := rfl
  rw [scan, scan, grammar, parameters]
  cases matched : (source.lenient.grammar.matchOperator rest).or (source.lenient.grammar.matchIdentifier rest) with
  | some found =>
      have listed : ∃ entry, (entry ∈ source.grammar.operators ∨ entry ∈ source.grammar.identifiers) ∧
          entry.template = found.1 := by
        rcases Option.or_eq_some_iff.mp matched with operator | ⟨-, identifier⟩
        · obtain ⟨entry, member, same⟩ := Grammar.candidate_entry _ _ _ _ (Grammar.longest_member _ _ operator)
          exact ⟨entry, .inl member, same⟩
        · have candidate := (List.mem_filter.mp (Grammar.longest_member _ _ identifier)).1
          obtain ⟨entry, member, same⟩ := Grammar.candidate_entry _ _ _ _ candidate
          exact ⟨entry, .inr member, same⟩
      obtain ⟨entry, member, same⟩ := listed
      exact .found _ _ (same ▸ member.elim (known.1 entry) (known.2 entry))
  | none =>
      cases source.lenient.parameters.find? rest with
      | some found => exact .found _ _ (by simp [Action.Known, Template.operand])
      | none => exact literal

theorem tokens_deferred (start : Nat) (text : List Char) :
    (source.strict.tokensFrom start text = source.lenient.tokensFrom start text ∧
      (∀ name span, .ok (Token.unknown name span) ∉ source.lenient.tokensFrom start text) ∧
      ∀ error, .error error ∈ source.strict.tokensFrom start text → error.kind ≠ .unknownIdentifier) ∨
    (∃ name span, .ok (Token.unknown name span) ∈ source.lenient.tokensFrom start text) ∧
      ∃ error, .error error ∈ source.strict.tokensFrom start text ∧ error.kind = .unknownIdentifier := by
  induction size : text.length using Nat.strong_induction_on generalizing start text with
  | _ count ih =>
      cases text with
      | nil =>
          rw [tokensFrom, tokensFrom]
          exact .inl ⟨rfl, by simp, by simp⟩
      | cons c rest =>
          have grammar : source.strict.grammar = source.lenient.grammar := rfl
          rw [tokensFrom, tokensFrom, grammar]
          by_cases white : source.lenient.grammar.isWhitespace c = true
          · rw [if_pos white, if_pos white]
            exact ih rest.length (by simp [← size]) _ rest rfl
          · rw [if_neg white, if_neg white]
            generalize strict : source.strict.scan start (c :: rest) = refusing
            generalize lenient : source.lenient.scan start (c :: rest) = allowing
            have scanned := source.scan_deferred known start (c :: rest)
            rw [strict, lenient] at scanned
            cases scanned with
            | refused error other => exact .inl ⟨rfl, by simp, by simpa using other⟩
            | unknown error name taken kind =>
                exact .inr ⟨⟨name, _, List.mem_cons_self⟩, error, List.mem_singleton_self _, kind⟩
            | found template taken acts =>
                have shorter : (rest.drop (taken - 1)).length < count := by
                  simp only [← size, List.length_drop, List.length_cons]
                  omega
                have other (span place : Span) (name : String) :
                    (.ofTemplate template span : Token T σ) ≠ .unknown name place := by
                  intro same
                  exact acts name (congrArg (fun token => token.form.action) same)
                rcases ih _ shorter _ _ rfl with ⟨same, named, kinds⟩ | ⟨⟨name, span, let_through⟩, error, reported, kind⟩
                · refine .inl ⟨congrArg _ same, fun name span member => ?_, fun error member => ?_⟩
                  · rcases List.mem_cons.mp member with here | later
                    · exact other _ _ _ (Except.ok.inj here).symm
                    · exact named name span later
                  · exact kinds error (by simpa using member)
                · exact .inr ⟨⟨name, span, List.mem_cons_of_mem _ let_through⟩, error, List.mem_cons_of_mem _ reported, kind⟩

end Source

namespace Evaluator

theorem tree_known [Numeric T] (settings : Settings T σ) (evaluator : Evaluator T σ)
    (built : settings.build = .ok evaluator) (parameters : Parameters) (expression : String) (e : Expr T σ)
    (found : evaluator.tree parameters expression = .ok e) :
    (∀ error, .error error ∉ (evaluator.source parameters expression).tokens) ∧
      ∀ name span, .ok (Token.unknown name span) ∉ (evaluator.source parameters expression).tokens := by
  obtain ⟨p, fits, split, carried, tree⟩ := Phrase.tree_sentence settings evaluator built parameters expression e found
  have proper : ∀ token ∈ p.tokens, Phrase.Proper token := fun token member =>
    Phrase.carried_proper settings evaluator built token (carried token member)
  have complete := (Phrase.tree_complete p fits proper).mp (by simp [tree])
  refine ⟨by simp [split], fun name span member => ?_⟩
  have listed : Token.unknown name span ∈ p.tokens := by simpa [split] using member
  exact Phrase.complete_known p fits complete _ listed rfl name rfl

theorem tree_deferred [Numeric T] (settings : Settings T σ) (lenient strict : Evaluator T σ)
    (allowing : { settings with allowUnknown := true }.build = .ok lenient)
    (refusing : { settings with allowUnknown := false }.build = .ok strict) (parameters : Parameters) (expression : String) :
    (lenient.tree parameters expression = strict.tree parameters expression ∧
      (∀ name span, .ok (Token.unknown name span) ∉ (lenient.source parameters expression).tokens) ∧
      ∀ error, .error error ∈ (strict.source parameters expression).tokens → error.kind ≠ .unknownIdentifier) ∨
    ((∀ e, lenient.tree parameters expression ≠ .ok e) ∧ ∀ e, strict.tree parameters expression ≠ .ok e) ∧
      (∃ name span, .ok (Token.unknown name span) ∈ (lenient.source parameters expression).tokens) ∧
      ∃ error, .error error ∈ (strict.source parameters expression).tokens ∧ error.kind = .unknownIdentifier := by
  have allowed (e : Expr T σ) := tree_known _ _ allowing parameters expression e
  have accepted (e : Expr T σ) := tree_known _ _ refusing parameters expression e
  obtain ⟨base, grammar, standard, registered, rfl⟩ := (Settings.build_ok _ lenient).mp allowing
  obtain ⟨base', grammar', standard', registered', rfl⟩ := (Settings.build_ok _ strict).mp refusing
  obtain rfl := Except.ok.inj (standard.symm.trans standard')
  obtain rfl := Except.ok.inj (registered.symm.trans registered')
  have known := Grammar.built_known _ _ refusing
  rcases Source.tokens_deferred ⟨grammar, parameters, false, expression⟩ known 0 expression.toList with
    ⟨same, named, kinds⟩ | ⟨⟨name, span, through⟩, error, reported, kind⟩
  · exact .inl ⟨congrArg (fun items => foldTree (Postfix.order expression items)) same.symm, named, kinds⟩
  · exact .inr ⟨⟨fun e found => (allowed e found).2 name span through, fun e found => (accepted e found).1 error reported⟩,
      ⟨name, span, through⟩, error, reported, kind⟩

-- Evaluators that differ in whether they let unknown names through compile the same texts to the same programs, and a
-- text in which there is such a name is compiled by neither.
theorem unknown_names_deferred [Numeric T] (settings : Settings T σ) (lenient strict : Evaluator T σ)
    (allowing : { settings with allowUnknown := true }.build = .ok lenient)
    (refusing : { settings with allowUnknown := false }.build = .ok strict) (expression : String) (names : List String) :
    (∀ optimize before compiled after,
      (lenient.compileWith expression names optimize).run before = (.ok compiled, after) ↔
        (strict.compileWith expression names optimize).run before = (.ok compiled, after)) ∧
    (∀ before compiled after, (lenient.compile expression names).run before = (.ok compiled, after) ↔
      (strict.compile expression names).run before = (.ok compiled, after)) ∧
    ∀ parameters, strict.grammar.bindParameters names = .ok parameters →
      ((∃ name span, .ok (Token.unknown name span) ∈ (lenient.source parameters expression).tokens) ↔
        ∃ error, .error error ∈ (strict.source parameters expression).tokens ∧ error.kind = .unknownIdentifier) ∧
      ((∃ name span, .ok (Token.unknown name span) ∈ (lenient.source parameters expression).tokens) →
        ∀ optimize before, ∃ error reason,
          (lenient.compileWith expression names optimize).run before = (.error error, before) ∧
            (strict.compileWith expression names optimize).run before = (.error reason, before)) := by
  have deferred (parameters : Parameters) := tree_deferred settings lenient strict allowing refusing parameters expression
  have one : lenient.grammar = strict.grammar ∧ lenient.optimizes = strict.optimizes := by
    obtain ⟨base, grammar, standard, registered, rfl⟩ := (Settings.build_ok _ lenient).mp allowing
    obtain ⟨base', grammar', standard', registered', rfl⟩ := (Settings.build_ok _ strict).mp refusing
    obtain rfl := Except.ok.inj (standard.symm.trans standard')
    exact ⟨Except.ok.inj (registered.symm.trans registered'), rfl⟩
  obtain ⟨grammar, optimizes⟩ := one
  have compiles (optimize : Bool) (before : σ) (compiled : Compiled T σ) (after : σ) :
      (lenient.compileWith expression names optimize).run before = (.ok compiled, after) ↔
        (strict.compileWith expression names optimize).run before = (.ok compiled, after) := by
    cases bound : strict.grammar.bindParameters names with
    | error refused => rw [compileWith, compileWith, grammar, bound]
    | ok parameters =>
        rcases deferred parameters with ⟨same, -⟩ | ⟨⟨none, nothing⟩, -⟩
        · simp only [compileWith, grammar, bound, same]
        · obtain ⟨error, fails⟩ := lenient.compile_treeless expression names optimize before parameters (grammar ▸ bound) none
          obtain ⟨reason, fails'⟩ := strict.compile_treeless expression names optimize before parameters bound nothing
          have differs (error : Error) : ¬ ((.error error, before) : Except Error (Compiled T σ) × σ) = (.ok compiled, after) := by
            simp
          exact iff_of_false (fails ▸ differs error) (fails' ▸ differs reason)
  refine ⟨compiles, ?_, fun parameters bound => ?_⟩
  · rw [compile, compile, optimizes]
    exact compiles strict.optimizes
  · rcases deferred parameters with ⟨-, named, kinds⟩ | ⟨⟨none, nothing⟩, through, reported⟩
    · have absent : ¬ ∃ name span, .ok (Token.unknown name span) ∈ (lenient.source parameters expression).tokens := by
        rintro ⟨name, span, member⟩
        exact named name span member
      refine ⟨iff_of_false absent ?_, fun some => absurd some absent⟩
      rintro ⟨error, member, kind⟩
      exact kinds error member kind
    · refine ⟨iff_of_true through reported, fun _ optimize before => ?_⟩
      obtain ⟨error, fails⟩ := lenient.compile_treeless expression names optimize before parameters (grammar ▸ bound) none
      obtain ⟨reason, fails'⟩ := strict.compile_treeless expression names optimize before parameters bound nothing
      exact ⟨error, reason, fails, fails'⟩

-- A name in a case that is never selected.
theorem guarded_names_deferred :
    ∃ lenient strict parameters, { integers with allowUnknown := true }.build = .ok lenient ∧
      { integers with allowUnknown := false }.build = .ok strict ∧
      strict.grammar.bindParameters ["x"] = .ok parameters ∧
      .ok (Token.unknown "y" ⟨9, 10⟩) ∈ (lenient.source parameters "if(1, x, y)").tokens ∧
      ∃ error reason, (lenient.compileWith "if(1, x, y)" ["x"] true).run () = (.error error, ()) ∧
        (strict.compileWith "if(1, x, y)" ["x"] true).run () = (.error reason, ()) := by
  obtain ⟨lenient, strict, parameters, allowing, refusing, bound, through⟩ :
      ∃ lenient strict parameters, { integers with allowUnknown := true }.build = .ok lenient ∧
        { integers with allowUnknown := false }.build = .ok strict ∧
        strict.grammar.bindParameters ["x"] = .ok parameters ∧
        (lenient.source parameters "if(1, x, y)").tokens[6]? = some (.ok (Token.unknown "y" ⟨9, 10⟩)) :=
    ⟨_, _, _, rfl, rfl, rfl, by with_unfolding_all rfl⟩
  obtain ⟨-, -, deferred⟩ := unknown_names_deferred integers lenient strict allowing refusing "if(1, x, y)" ["x"]
  have member := List.mem_of_getElem? through
  have fails := (deferred parameters bound).2 ⟨"y", ⟨9, 10⟩, member⟩ true ()
  exact ⟨lenient, strict, parameters, allowing, refusing, bound, member, fails⟩

end Evaluator

end Formula
