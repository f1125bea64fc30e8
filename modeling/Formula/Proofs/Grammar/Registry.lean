import Formula.Proofs.Grammar.Lookup

set_option autoImplicit false

namespace Formula

variable {T σ : Type}

namespace Grammar

-- An operator is spelled with signs that no name of a host starts with.
def Symbol (template : Template T σ) : Prop :=
  ∃ c rest, template.name.toList = c :: rest ∧ Text.isAscii c = true ∧ Text.isIdentifierStart c = false ∧ c ≠ '.'

theorem builtin_operators_symbols (flags : Flags) : ∀ template ∈ builtinOperators flags, Symbol (template : Template T σ) := by
  have sign (c : Char) (rest : List Char) (template : Template T σ) (spelling : template.name = String.ofList (c :: rest))
      (ascii : Text.isAscii c = true ∧ Text.isIdentifierStart c = false ∧ c ≠ '.') : Symbol template :=
    ⟨c, rest, by simp [spelling], ascii⟩
  apply builtin_operators_each
  · simp only [punctuationTemplates, List.forall_mem_cons]
    exact ⟨sign '(' [] _ rfl (by decide), sign ')' [] _ rfl (by decide), sign ',' [] _ rfl (by decide), by simp⟩
  · intro _
    simp only [numericTemplates, List.forall_mem_cons]
    exact ⟨sign '+' [] _ rfl (by decide), sign '-' [] _ rfl (by decide), sign '*' [] _ rfl (by decide),
      sign '/' [] _ rfl (by decide), sign '%' [] _ rfl (by decide), by simp⟩
  · intro _
    simp only [decimalTemplates, List.forall_mem_cons]
    exact ⟨sign '^' [] _ rfl (by decide), sign '<' ['<'] _ rfl (by decide), sign '>' ['>'] _ rfl (by decide), by simp⟩
  · intro _
    simp only [integerTemplates, List.forall_mem_cons]
    exact ⟨sign '<' ['<'] _ rfl (by decide), sign '>' ['>'] _ rfl (by decide), sign '|' [] _ rfl (by decide),
      sign '&' [] _ rfl (by decide), sign '^' [] _ rfl (by decide), sign '~' [] _ rfl (by decide),
      sign '!' [] _ rfl (by decide), by simp⟩

theorem built_symbols [Numeric T] (settings : Settings T σ) (evaluator : Evaluator T σ)
    (built : settings.build = .ok evaluator) : ∀ entry ∈ evaluator.grammar.operators, Symbol entry.template := by
  apply built_induction (P := fun grammar => ∀ entry ∈ grammar.operators, Symbol entry.template) settings evaluator built
  · exact fun reader => by simp
  · intro template member grammar next holds registered
    obtain ⟨-, rfl⟩ := register_operator_ok grammar next template registered
    exact List.forall_mem_append.mpr ⟨holds, List.forall_mem_singleton.mpr (builtin_operators_symbols _ template member)⟩
  · intro template _ grammar next holds registered
    obtain ⟨-, -, rfl⟩ := register_identifier_ok grammar next template registered
    exact holds
  · intro name offer grammar next holds registered
    obtain ⟨-, -, rfl⟩ := register_identifier_ok grammar next _ registered
    exact holds

theorem operator_missing (grammar : Grammar T σ) (symbols : ∀ entry ∈ grammar.operators, Symbol entry.template)
    (first : Char) (rest : List Char) (start : Text.isIdentifierStart first = true ∨ first = '.') :
    grammar.matchOperator (first :: rest) = none := by
  rw [matchOperator, longest_none, List.eq_nil_iff_forall_not_mem]
  rintro ⟨template, length⟩ member
  obtain ⟨entry, known, rfl, -, begins, -⟩ := (mem_candidates ..).mp member
  obtain ⟨c, name, spelling, ascii, sign, point⟩ := symbols entry known
  rw [spelling] at begins
  have like := Text.resembles_same grammar.caseSensitive first c
    ((Text.same_letter_iff _ _ _).mp (Bool.and_eq_true_iff.mp begins).1) (.inr ascii)
  rcases start with start | here
  · exact absurd (like.start.symm.trans start) (by simp [sign])
  · exact point (like.point.mp here)

theorem key_letters (grammar : Grammar T σ) (a b : String)
    (letterwise : grammar.caseSensitive = true ∨ Text.Letterwise a ∧ Text.Letterwise b)
    (same : Text.letters grammar.caseSensitive a.toList = Text.letters grammar.caseSensitive b.toList) :
    grammar.key a = grammar.key b := by
  cases sensitive : grammar.caseSensitive with
  | true =>
      rw [sensitive] at same
      have spelled : a.toList = b.toList := List.map_injective_iff.mpr (fun c d => by simp [Text.letter]) same
      rw [String.toList_injective spelled]
  | false =>
      rw [sensitive] at same
      obtain ⟨plainA, plainB⟩ := letterwise.resolve_left (by simp [sensitive])
      simp only [key, sensitive, Bool.false_eq_true, if_false]
      exact Text.lowercase_letters a b plainA plainB same

theorem stands_unique (grammar : Grammar T σ) (orderly : grammar.Orderly)
    (ascii : grammar.caseSensitive = true ∨
      ∀ entry ∈ grammar.identifiers, ∀ c ∈ entry.template.name.toList, Text.isAscii c = true) (text : List Char)
    (a b : Entry T σ) (knownA : a ∈ grammar.identifiers) (knownB : b ∈ grammar.identifiers)
    (beginsA : Text.begins grammar.caseSensitive a.template.name.toList text = true)
    (beginsB : Text.begins grammar.caseSensitive b.template.name.toList text = true)
    (even : a.template.name.toList.length = b.template.name.toList.length) : a = b := by
  have letters := Text.begins_both _ _ _ text beginsA beginsB even
  refine grammar.entry_unique orderly a b knownA knownB (grammar.key_letters _ _ (ascii.imp_right fun each => ?_) letters)
  exact ⟨Text.ascii_letterwise _ (each a knownA), Text.ascii_letterwise _ (each b knownB)⟩

theorem letters_key (grammar : Grammar T σ) (a b : String)
    (plain : grammar.caseSensitive = true ∨
      (∀ c ∈ a.toList, Text.isAscii c = true) ∧ ∀ c ∈ b.toList, Text.isAscii c = true)
    (same : grammar.key a = grammar.key b) :
    Text.letters grammar.caseSensitive a.toList = Text.letters grammar.caseSensitive b.toList := by
  cases sensitive : grammar.caseSensitive with
  | true =>
      have spelled : a = b := by simpa [key, sensitive] using same
      rw [spelled]
  | false =>
      obtain ⟨asciiA, asciiB⟩ := plain.resolve_left (by simp [sensitive])
      exact Text.letters_lowercase a b asciiA asciiB (by simpa [key, sensitive] using same)

end Grammar

theorem Extension.template_name (name : String) (offer : Offer T σ) :
    (Extension.template name offer : Template T σ).name = name := by
  cases offer <;> rfl

def Settings.offers (extensions : List (Extension T σ)) : List (String × Offer T σ) :=
  extensions.flatMap fun extension => extension.offers.map fun (name, offer) => (extension.qualify name, offer)

namespace Grammar

-- Takes an offer up, unless its name is taken.
def takeUp (grammar : Grammar T σ) (named : String × Offer T σ) : Except GrammarError (Grammar T σ) :=
  if grammar.isReserved named.1 then .ok grammar
  else grammar.registerIdentifier (Extension.template named.1 named.2)

theorem register_from_offers (extension : Extension T σ) (grammar : Grammar T σ) (count : Nat)
    (offers : List (String × Offer T σ)) :
    (extension.registerFrom grammar count offers).map Prod.fst =
      (offers.map fun (name, offer) => (extension.qualify name, offer)).foldlM takeUp grammar := by
  induction offers generalizing grammar count with
  | nil => rfl
  | cons named rest ih =>
      rw [Extension.registerFrom, List.map_cons, List.foldlM_cons, takeUp]
      by_cases reserved : grammar.isReserved (extension.qualify named.1) = true
      · simp only [reserved, if_true, ih]
        rfl
      · simp only [reserved, if_false, Bool.false_eq_true]
        cases grammar.registerIdentifier (Extension.template (extension.qualify named.1) named.2) with
        | error error => rfl
        | ok next => exact ih next (count + 1)

theorem register_all_offers (grammar : Grammar T σ) (extensions : List (Extension T σ)) :
    Settings.registerAll grammar extensions = (Settings.offers extensions).foldlM takeUp grammar := by
  induction extensions generalizing grammar with
  | nil => rfl
  | cons extension rest ih =>
      have first := register_from_offers extension grammar 0 extension.offers
      rw [Settings.registerAll, List.foldlM_cons, Settings.offers, List.flatMap_cons, List.foldlM_append, ← first]
      change (_ >>= fun next => Settings.registerAll next rest) = _
      simp only [ih]
      rfl

def firstUnder? (grammar : Grammar T σ) (offers : List (String × Offer T σ)) (key : String) : Option (String × Offer T σ) :=
  offers.find? fun named => grammar.key named.1 = key

-- A grammar over another one to which offers have been added.
structure Widens (base : Grammar T σ) (offers : List (String × Offer T σ)) (grammar : Grammar T σ) : Prop where
  flags : grammar.flags = base.flags
  operators : grammar.operators = base.operators
  whitespace : grammar.whitespace = base.whitespace
  reader : grammar.reader = base.reader
  grown : base.identifiers <+: grammar.identifiers
  reserved : ∀ key, key ∈ grammar.reserved ↔ key ∈ base.reserved ∨ (base.firstUnder? offers key).isSome
  added : ∀ entry ∈ grammar.identifiers, entry ∈ base.identifiers ∨
    ∃ name offer, base.key name ∉ base.reserved ∧ base.firstUnder? offers (base.key name) = some (name, offer) ∧
      entry = base.entry (Extension.template name offer)
  listed : ∀ key name offer, key ∉ base.reserved → base.firstUnder? offers key = some (name, offer) →
    base.entry (Extension.template name offer) ∈ grammar.identifiers

section

variable (base grammar : Grammar T σ) (name : String) (offer : Offer T σ) (rest : List (String × Offer T σ))

theorem first_here : base.firstUnder? ((name, offer) :: rest) (base.key name) = some (name, offer) := by
  simp [firstUnder?]

theorem first_other (key : String) (different : base.key name ≠ key) :
    base.firstUnder? ((name, offer) :: rest) key = base.firstUnder? rest key := by
  simp [firstUnder?, different]

theorem widens_skip (known : base.key name ∈ base.reserved) (widens : base.Widens rest grammar) :
    base.Widens ((name, offer) :: rest) grammar := by
  have same (key : String) (free : key ∉ base.reserved) :
      base.firstUnder? ((name, offer) :: rest) key = base.firstUnder? rest key :=
    base.first_other name offer rest key fun same => free (by rwa [← same])
  refine ⟨widens.flags, widens.operators, widens.whitespace, widens.reader, widens.grown, ?_, ?_, ?_⟩
  · intro key
    rw [widens.reserved]
    by_cases free : key ∈ base.reserved
    · exact iff_of_true (.inl free) (.inl free)
    · rw [same key free]
  · intro entry member
    refine (widens.added entry member).imp_right ?_
    rintro ⟨name', offer', free, found, rfl⟩
    exact ⟨name', offer', free, (same _ free).trans found, rfl⟩
  · exact fun key name' offer' free found => widens.listed key name' offer' free ((same key free).symm.trans found)

theorem widens_take (fresh : base.key name ∉ base.reserved)
    (widens : Widens { base with
      reserved := base.reserved ++ [base.key name]
      identifiers := base.identifiers ++ [base.entry (Extension.template name offer)] } rest grammar) :
    base.Widens ((name, offer) :: rest) grammar := by
  have split (key : String) : key ∉ base.reserved ++ [base.key name] ↔ key ∉ base.reserved ∧ base.key name ≠ key := by
    simp [eq_comm]
  refine ⟨widens.flags, widens.operators, widens.whitespace, widens.reader,
    (List.prefix_append _ _).trans widens.grown, ?_, ?_, ?_⟩
  · intro key
    rw [widens.reserved, List.mem_append, List.mem_singleton, or_assoc]
    by_cases same : base.key name = key
    · simp [← same, base.first_here name offer rest]
    · rw [base.first_other name offer rest key same]
      exact or_congr_right (or_iff_right (Ne.symm same))
  · intro entry member
    rcases widens.added entry member with old | ⟨name', offer', free', found, rfl⟩
    · rcases List.mem_append.mp old with older | new
      · exact .inl older
      · exact .inr ⟨name, offer, fresh, base.first_here name offer rest, List.mem_singleton.mp new⟩
    · obtain ⟨free', different⟩ := (split _).mp free'
      exact .inr ⟨name', offer', free', (base.first_other name offer rest _ different).trans found, rfl⟩
  · intro key name' offer' free' found
    by_cases same : base.key name = key
    · obtain ⟨rfl, rfl⟩ := Prod.mk.inj (Option.some.inj ((base.first_here name offer rest).symm.trans (same ▸ found)))
      exact widens.grown.subset (by simp)
    · exact widens.listed key name' offer' ((split key).mpr ⟨free', same⟩)
        ((base.first_other name offer rest key same).symm.trans found)

end

theorem offers_widen (offers : List (String × Offer T σ)) (base grammar : Grammar T σ)
    (taken : offers.foldlM takeUp base = .ok grammar) : base.Widens offers grammar := by
  induction offers generalizing base with
  | nil =>
      obtain rfl := Except.ok.inj taken
      exact ⟨rfl, rfl, rfl, rfl, List.prefix_rfl, by simp [firstUnder?], fun entry known => .inl known, by simp [firstUnder?]⟩
  | cons named rest ih =>
      obtain ⟨name, offer⟩ := named
      rw [List.foldlM_cons, takeUp] at taken
      by_cases reserved : base.isReserved name = true
      · have known : base.key name ∈ base.reserved := by simpa [isReserved] using reserved
        exact base.widens_skip grammar name offer rest known (ih base (by simpa [reserved, bind, Except.bind] using taken))
      · have fresh : base.key name ∉ base.reserved := by simpa [isReserved] using reserved
        cases registered : base.registerIdentifier (Extension.template name offer) with
        | error error => simp [reserved, registered, bind, Except.bind] at taken
        | ok next =>
            obtain ⟨-, -, rfl⟩ := register_identifier_ok base next _ registered
            have widens := ih _ (by simpa [reserved, registered, bind, Except.bind] using taken)
            rw [Extension.template_name] at widens
            exact base.widens_take grammar name offer rest fresh widens

end Grammar

namespace Settings

theorem build_ok [Numeric T] (settings : Settings T σ) (evaluator : Evaluator T σ) :
    settings.build = .ok evaluator ↔ ∃ base grammar,
      Grammar.standard settings.flags (settings.reader.getD Numeric.read) settings.whitespace = .ok base ∧
        registerAll base settings.extensions = .ok grammar ∧
        evaluator = ⟨grammar, settings.allowUnknown, settings.optimizes⟩ := by
  unfold build
  simp only [bind, Except.bind, pure, Except.pure]
  cases Grammar.standard settings.flags (settings.reader.getD Numeric.read) settings.whitespace with
  | error error => simp
  | ok base =>
      cases registered : registerAll base settings.extensions with
      | error error => simp [registered]
      | ok grammar => simp [registered, eq_comm]

end Settings

namespace Grammar

theorem fold_reserved (register : Grammar T σ → Template T σ → Except GrammarError (Grammar T σ))
    (adds : ∀ grammar template next, register grammar template = .ok next →
      next.flags = grammar.flags ∧ next.reserved = grammar.reserved ++ [grammar.key template.name])
    (templates : List (Template T σ)) (grammar last : Grammar T σ) (ran : templates.foldlM register grammar = .ok last) :
    last.flags = grammar.flags ∧
      last.reserved = grammar.reserved ++ templates.map fun template => grammar.key template.name := by
  induction templates generalizing grammar with
  | nil =>
      obtain rfl := Except.ok.inj ran
      exact ⟨rfl, by simp⟩
  | cons template rest ih =>
      rw [List.foldlM_cons] at ran
      cases registered : register grammar template with
      | error error => simp [registered, bind, Except.bind] at ran
      | ok next =>
          rw [registered] at ran
          obtain ⟨flags, reserved⟩ := adds grammar template next registered
          obtain ⟨later, more⟩ := ih next ran
          refine ⟨later.trans flags, ?_⟩
          simp only [more, reserved, key_flags grammar next flags, List.map_cons, List.append_assoc, List.singleton_append]

theorem standard_reserved [Numeric T] (flags : Flags) (reader : Reader T) (whitespace : List Char) (grammar : Grammar T σ)
    (built : standard flags reader whitespace = .ok grammar) :
    grammar.flags = flags ∧ grammar.reserved =
      (builtinOperators flags ++ builtinIdentifiers : List (Template T σ)).map fun template => grammar.key template.name := by
  unfold standard at built
  simp only [bind, Except.bind, throw, throwThe, MonadExceptOf.throw] at built
  split at built
  · exact absurd built (by simp)
  · split at built
    · exact absurd built (by simp)
    · split at built
      · exact absurd built (by simp)
      · rename_i operators ran
        obtain ⟨flagged, signs⟩ := fold_reserved registerOperator (fun before template next registered => by
          obtain ⟨-, rfl⟩ := register_operator_ok before next template registered
          exact ⟨rfl, rfl⟩) _ _ operators ran
        obtain ⟨flags', words⟩ := fold_reserved registerIdentifier (fun before template next registered => by
          obtain ⟨-, -, rfl⟩ := register_identifier_ok before next template registered
          exact ⟨rfl, rfl⟩) _ operators grammar built
        refine ⟨flags'.trans flagged, ?_⟩
        rw [words, signs, List.map_append, key_flags operators grammar flags', key_flags _ operators flagged, List.nil_append]

end Grammar

theorem Grammar.built_settings [Numeric T] (settings : Settings T σ) (evaluator : Evaluator T σ)
    (built : settings.build = .ok evaluator) :
    evaluator.grammar.flags = settings.flags ∧ evaluator.grammar.whitespace = settings.whitespace ∧
      evaluator.grammar.reader = settings.reader.getD Numeric.read := by
  obtain ⟨base, grammar, standard, registered, rfl⟩ := (settings.build_ok evaluator).mp built
  rw [register_all_offers] at registered
  have widens := offers_widen _ base grammar registered
  have start : base.flags = settings.flags ∧ base.whitespace = settings.whitespace ∧
      base.reader = settings.reader.getD Numeric.read := by
    apply standard_keeps (P := fun grammar => grammar.flags = settings.flags ∧ grammar.whitespace = settings.whitespace ∧
      grammar.reader = settings.reader.getD Numeric.read) _ _ _ ⟨rfl, rfl, rfl⟩ _ _ base standard
    · intro template _ grammar next holds registered
      obtain ⟨-, rfl⟩ := register_operator_ok grammar next template registered
      exact holds
    · intro template _ grammar next holds registered
      obtain ⟨-, -, rfl⟩ := register_identifier_ok grammar next template registered
      exact holds
  exact ⟨widens.flags.trans start.1, widens.whitespace.trans start.2.1, widens.reader.trans start.2.2⟩

theorem Evaluator.default_reader [Numeric T] (settings : Settings T σ) (evaluator : Evaluator T σ)
    (built : settings.build = .ok evaluator) (default : settings.reader = none) :
    evaluator.grammar.reader = Numeric.read := by
  rw [(Grammar.built_settings settings evaluator built).2.2, default]
  rfl

theorem Grammar.build_widens [Numeric T] (settings : Settings T σ) (more : List (Extension T σ)) (first second : Evaluator T σ)
    (built : settings.build = .ok first)
    (rebuilt : { settings with extensions := settings.extensions ++ more }.build = .ok second) :
    first.grammar.Widens (Settings.offers more) second.grammar ∧ second.allowUnknown = first.allowUnknown := by
  obtain ⟨base, grammar, standard, registered, rfl⟩ := (settings.build_ok first).mp built
  obtain ⟨base', wide, standard', registeredAll, rfl⟩ := (Settings.build_ok _ second).mp rebuilt
  obtain rfl := Except.ok.inj (standard.symm.trans standard')
  refine ⟨offers_widen _ grammar wide ?_, rfl⟩
  rw [Settings.registerAll, List.foldlM_append] at registeredAll
  change (Settings.registerAll base settings.extensions >>= fun next => Settings.registerAll next more) = _ at registeredAll
  rw [registered] at registeredAll
  exact (register_all_offers grammar more).symm.trans registeredAll

end Formula
