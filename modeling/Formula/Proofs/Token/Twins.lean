import Formula.Proofs.Grammar.Inputs
import Formula.Proofs.Literal.Twins

set_option autoImplicit false

namespace Formula

variable {T σ : Type}

def ParseError.unquoted (error : ParseError) : ParseError := { error with expression := "", details := "" }

def EvalError.unquoted : EvalError → EvalError
  | unknownIdentifier _ => unknownIdentifier ""
  | located span source => located span source.unquoted
  | error => error

def Error.unquoted : Error → Error
  | parse error => parse error.unquoted
  | eval error => eval error.unquoted
  | error => error

theorem EvalError.unquoted_locate (error : EvalError) (span : Span) :
    (error.locate span).unquoted = error.unquoted.locate span := by
  cases error <;> rfl

inductive Except.Alike {E α β : Type} (blank : E → E) (like : α → β → Prop) : Except E α → Except E β → Prop
  | ok (value : α) (other : β) (same : like value other) : Alike blank like (.ok value) (.ok other)
  | error (error other : E) (same : blank error = blank other) : Alike blank like (.error error) (.error other)

namespace Except

variable {E α β γ δ : Type} {blank : E → E} {like : α → β → Prop} {later : γ → δ → Prop}

theorem alike_cases (found : Except E α) (other : Except E β) (same : Alike blank like found other) :
    (∃ value known, found = .ok value ∧ other = .ok known ∧ like value known) ∨
      ∃ error reason, found = .error error ∧ other = .error reason ∧ blank error = blank reason := by
  cases same with
  | ok value known same => exact .inl ⟨value, known, rfl, rfl, same⟩
  | error error reason same => exact .inr ⟨error, reason, rfl, rfl, same⟩

theorem alike_bind (found : Except E α) (other : Except E β) (next : α → Except E γ) (after : β → Except E δ)
    (same : Alike blank like found other)
    (each : ∀ value known, like value known → Alike blank later (next value) (after known)) :
    Alike blank later (found >>= next) (other >>= after) := by
  cases same with
  | ok value known same => exact each value known same
  | error error reason same => exact .error error reason same

theorem map_error_ok (outcome : Except E α) (f : E → δ) (value : α) :
    outcome.mapError f = .ok value ↔ outcome = .ok value := by
  cases outcome with
  | ok found => simp [Except.mapError]
  | error error => simp [Except.mapError]

theorem alike_same (outcome : Except E α) : Alike blank Eq outcome outcome := by
  cases outcome with
  | ok value => exact .ok value value rfl
  | error error => exact .error error error rfl

end Except

inductive Action.Twin : Action T σ → Action T σ → Prop
  | literal (value : T) : Twin (.literal value) (.literal value)
  | parameter (index : Nat) : Twin (.parameter index) (.parameter index)
  | unknown (name other : String) : Twin (.unknown name) (.unknown other)

inductive Template.Twin : Template T σ → Template T σ → Prop
  | same (template : Template T σ) : Twin template template
  | word (name other : String) (action known : Action T σ) (twin : action.Twin known) :
      Twin (.operand name action) (.operand other known)

inductive Token.Twin : Token T σ → Token T σ → Prop
  | same (token : Token T σ) : Twin token token
  | word (name other : String) (action known : Action T σ) (twin : action.Twin known) (span : Span) :
      Twin (.ofTemplate (.operand name action) span) (.ofTemplate (.operand other known) span)

namespace Grammar

-- A grammar that hears no letter case, its names being listed under both cases of their first character.
structure Caseless (grammar : Grammar T σ) : Prop where
  insensitive : grammar.caseSensitive = false
  operators : ∀ entry ∈ grammar.operators, Symbol entry.template
  identifiers : ∀ entry ∈ grammar.identifiers, ∀ c ∈ entry.template.name.toList, Text.isAscii c = true
  indexed : grammar.Indexed
  whitespace : grammar.whitespace = []
  read : ∀ text other start, Text.Twins text other →
    (grammar.read text start).mapError (fun _ => ()) = (grammar.read other start).mapError fun _ => ()

variable (grammar : Grammar T σ) (text other : List Char) (twins : Text.Twins text other)

theorem lead_twins (entry : Entry T σ) (insensitive : grammar.caseSensitive = false)
    (leads : entry.leads = grammar.leads entry.template.name)
    (ascii : ∀ c, entry.template.name.toList.head? = some c → Text.isAscii c = true) (a b : Char) (rest more : List Char)
    (twins : Text.Twins (a :: rest) (b :: more))
    (here : (a ∈ entry.leads && Text.begins false entry.template.name.toList (a :: rest)) = true) :
    (b ∈ entry.leads && Text.begins false entry.template.name.toList (b :: more)) = true := by
  obtain ⟨lead, begins⟩ := Bool.and_eq_true_iff.mp here
  rw [Text.twins_begin _ _ _ twins] at begins
  refine Bool.and_eq_true_iff.mpr ⟨?_, begins⟩
  have filled : entry.template.name.toList ≠ [] := by
    intro blank
    have listed : a ∈ entry.leads := of_decide_eq_true lead
    simp [leads, Grammar.leads, blank] at listed
  have visible : grammar.Visible (b :: more) entry.template := by
    refine .inr fun first c foremost named => .inr ⟨?_, Text.ascii_restored c (ascii c named)⟩
    obtain rfl : b = first := by simpa using foremost
    cases twins with
    | cons twin _ => exact Text.ascii_restored b twin.right
  obtain ⟨first, foremost, listed⟩ := grammar.visible_listed _ entry visible leads filled (insensitive ▸ begins)
  obtain rfl : b = first := by simpa using foremost
  exact decide_eq_true listed

include twins

theorem candidates_twins (insensitive : grammar.caseSensitive = false) (entries : List (Entry T σ))
    (leads : ∀ entry ∈ entries, entry.leads = grammar.leads entry.template.name)
    (ascii : ∀ entry ∈ entries, ∀ c, entry.template.name.toList.head? = some c → Text.isAscii c = true) :
    grammar.candidates entries text = grammar.candidates entries other := by
  have swapped : Text.Twins other text := (twins.imp fun _ _ => Text.Twin.symm).flip
  cases twins with
  | nil => rfl
  | @cons a b rest more twin tail =>
      refine List.filterMap_congr fun entry known => ?_
      have same : (a ∈ entry.leads && Text.begins false entry.template.name.toList (a :: rest)) =
          (b ∈ entry.leads && Text.begins false entry.template.name.toList (b :: more)) := by
        rw [Bool.eq_iff_iff]
        exact ⟨grammar.lead_twins entry insensitive (leads entry known) (ascii entry known) a b rest more (.cons twin tail),
          grammar.lead_twins entry insensitive (leads entry known) (ascii entry known) b a more rest swapped⟩
      simp only [insensitive, same]

theorem operator_twins (caseless : grammar.Caseless) : grammar.matchOperator text = grammar.matchOperator other := by
  refine congrArg longest (grammar.candidates_twins text other twins caseless.insensitive _ caseless.indexed.operators ?_)
  intro entry known c foremost
  obtain ⟨d, rest, spelling, ascii, -⟩ := caseless.operators entry known
  obtain rfl : d = c := by simpa [spelling] using foremost
  exact ascii

theorem identifier_twins (caseless : grammar.Caseless) : grammar.matchIdentifier text = grammar.matchIdentifier other := by
  have found := grammar.candidates_twins text other twins caseless.insensitive _ caseless.indexed.identifiers
    fun entry known c foremost => caseless.identifiers entry known c (List.mem_of_mem_head? foremost)
  have ends : (fun found : Template T σ × Nat => Text.endsWord (text.drop found.2)) =
      fun found => Text.endsWord (other.drop found.2) :=
    funext fun found => Text.twins_word _ _ (List.forall₂_drop found.2 twins)
  unfold matchIdentifier
  rw [found]
  exact congrArg (fun keep => longest (List.filter keep _)) ends

end Grammar

theorem Parameters.find_twins (parameters : Parameters) (insensitive : parameters.caseSensitive = false)
    (text other : List Char) (twins : Text.Twins text other) : parameters.find? text = parameters.find? other := by
  unfold find?
  refine congrArg Grammar.longest (List.filterMap_congr fun named _ => ?_)
  obtain ⟨name, index⟩ := named
  simp only [insensitive, Text.twins_begin _ _ _ twins, Text.twins_word _ _ (List.forall₂_drop name.toList.length twins)]

namespace Source

def Found (found other : Template T σ × Nat) : Prop := found.1.Twin other.1 ∧ found.2 = other.2

variable (source : Source T σ) (expression : String) (start : Nat) (rest more : List Char) (twins : Text.Twins rest more)

include twins

theorem error_twins (kind : ParseErrorKind) (length : Nat) (details reason : String) :
    (source.errorOver kind start rest length details).unquoted =
      (errorOver { source with expression := expression } kind start more length reason).unquoted := by
  have width := Text.twins_width _ _ (List.forall₂_take length twins)
  simp only [errorOver, ParseError.unquoted, width]

theorem unknown_twins :
    Except.Alike ParseError.unquoted Found (source.scanUnknown start rest)
      (scanUnknown { source with expression := expression } start more) := by
  have starts : rest.head?.any Text.isIdentifierStart = more.head?.any Text.isIdentifierStart := by
    cases twins with
    | nil => rfl
    | cons twin _ => exact (Text.twin_kin _ _ twin).start
  have word := Text.twins_run Text.isIdentifierContinue (fun a b twin => (Text.twin_kin a b twin).continues) rest more twins
  have signs := Text.twins_run Text.isOperatorContinue (fun a b twin => (Text.twin_kin a b twin).sign) rest more twins
  simp only [scanUnknown, starts, word, signs]
  by_cases name : more.head?.any Text.isIdentifierStart = true
  · rw [if_pos name, if_pos name]
    by_cases allowed : source.allowUnknown = true
    · rw [if_pos allowed, if_pos allowed]
      exact .ok _ _ ⟨.word _ _ _ _ (.unknown _ _), rfl⟩
    · rw [if_neg allowed, if_neg allowed]
      exact .error _ _ (source.error_twins expression start rest more twins _ _ _ _)
  · rw [if_neg name, if_neg name]
    exact .error _ _ (source.error_twins expression start rest more twins _ _ _ _)

theorem literal_twins (caseless : source.grammar.Caseless) (whole : Text.Twins source.text expression.toList) :
    Except.Alike ParseError.unquoted Found (source.scanLiteral start rest)
      (scanLiteral { source with expression := expression } start more) := by
  have read := caseless.read source.text expression.toList start whole
  have run : literalRun rest = literalRun more :=
    Text.twins_run _ (fun a b twin => Text.twin_blind (fun c => Text.isIdentifierContinue c || c = '.')
      (Text.ascii_all (by decide)) a b twin) rest more twins
  have unknown := source.unknown_twins expression start rest more twins
  have misread (details reason : String) :
      Except.Alike (α := Template T σ × Nat) ParseError.unquoted Found
        (.error (source.errorOver .invalidLiteral start rest (literalRun rest) details))
        (.error (errorOver { source with expression := expression } .invalidLiteral start more (literalRun more) reason)) := by
    rw [run]
    exact .error _ _ (source.error_twins expression start rest more twins _ _ _ _)
  revert read
  unfold scanLiteral
  dsimp only [text]
  generalize source.grammar.read source.expression.toList start = left
  generalize source.grammar.read expression.toList start = right
  intro read
  cases left with
  | error details =>
      cases right with
      | error reason => exact misread details reason
      | ok found => exact absurd read (by simp [Except.mapError])
  | ok found =>
      cases right with
      | error reason => exact absurd read (by simp [Except.mapError])
      | ok known =>
          obtain rfl : found = known := Except.ok.inj read
          rcases found with _ | ⟨value, stop⟩
          · exact unknown
          · by_cases forward : start < stop
            · simp only [forward, if_true, Text.twins_characters (stop - start) rest more twins]
              cases Text.charactersIn? (stop - start) more with
              | none => exact misread _ _
              | some length => exact .ok _ _ ⟨.word _ _ _ _ (.literal value), rfl⟩
            · simp only [forward, if_false]
              exact unknown

theorem scan_twins (caseless : source.grammar.Caseless) (inputs : source.parameters.caseSensitive = false)
    (whole : Text.Twins source.text expression.toList) :
    Except.Alike ParseError.unquoted Found (source.scan start rest)
      (scan { source with expression := expression } start more) := by
  have operators := source.grammar.operator_twins rest more twins caseless
  have identifiers := source.grammar.identifier_twins rest more twins caseless
  simp only [scan, operators, identifiers, source.parameters.find_twins inputs rest more twins]
  cases (source.grammar.matchOperator more).or (source.grammar.matchIdentifier more) with
  | some found => exact .ok _ _ ⟨.same _, rfl⟩
  | none =>
      cases source.parameters.find? more with
      | some found => exact .ok _ _ ⟨.word _ _ _ _ (.parameter found.1), rfl⟩
      | none => exact source.literal_twins expression start rest more twins caseless whole

omit twins

theorem template_token (template known : Template T σ) (twin : template.Twin known) (span : Span) :
    (Token.ofTemplate template span).Twin (.ofTemplate known span) := by
  cases twin with
  | same => exact .same _
  | word name other action known twin => exact .word name other action known twin span

theorem tokens_twins (caseless : source.grammar.Caseless) (inputs : source.parameters.caseSensitive = false)
    (whole : Text.Twins source.text expression.toList) (twins : Text.Twins rest more) :
    List.Forall₂ (Except.Alike ParseError.unquoted Token.Twin) (source.tokensFrom start rest)
      (tokensFrom { source with expression := expression } start more) := by
  induction length : rest.length using Nat.strong_induction_on generalizing start rest more with
  | _ length ih =>
      cases twins with
      | nil =>
          rw [tokensFrom, tokensFrom]
          exact .nil
      | @cons a b rest more twin tail =>
          have kin := Text.twin_kin a b twin
          have white : source.grammar.isWhitespace a = source.grammar.isWhitespace b := by
            simp only [Grammar.isWhitespace, caseless.whitespace, kin.white, List.not_mem_nil, decide_false]
          rw [tokensFrom, tokensFrom]
          change List.Forall₂ _ _ (if source.grammar.isWhitespace b then _ else _)
          rw [white, kin.size]
          by_cases blank : source.grammar.isWhitespace b = true
          · rw [if_pos blank, if_pos blank]
            exact ih rest.length (by simp [← length]) _ rest more tail rfl
          · rw [if_neg blank, if_neg blank]
            have scanned := source.scan_twins expression start _ _ (.cons twin tail) caseless inputs whole
            revert scanned
            generalize source.scan start (a :: rest) = left
            generalize scan { source with expression := expression } start (b :: more) = right
            rintro (⟨⟨template, length⟩, ⟨known, _⟩, same, rfl⟩ | ⟨error, reason, same⟩)
            · have width := Text.twins_width _ _ (List.Forall₂.cons twin (List.forall₂_take (length - 1) tail))
              simp only [width]
              refine .cons (.ok _ _ (template_token template known same _)) ?_
              refine ih (rest.drop (length - 1)).length ?_ _ _ _ (List.forall₂_drop _ tail) rfl
              simp only [List.length_drop, List.length_cons] at *
              omega
            · exact .cons (.error error reason same) .nil

end Source

namespace Order

variable (expression other : String) (state : Order T σ) (token : Token T σ)

theorem placed_quoted : Except.Alike ParseError.unquoted Eq (placed expression state token) (placed other state token) := by
  unfold placed
  split
  · split
    · exact .ok _ _ rfl
    · cases token.alone with
      | some form => exact .ok _ _ rfl
      | none => exact .error _ _ rfl
  · split
    · exact .error _ _ rfl
    · exact .ok _ _ rfl

theorem check_quoted :
    Except.Alike ParseError.unquoted Eq (checkOperand expression state token) (checkOperand other state token) := by
  unfold checkOperand
  split
  · exact .error _ _ rfl
  · exact .error _ _ rfl
  · exact .error _ _ rfl
  · exact .ok _ _ rfl

theorem group_quoted (frame : Frame) (stack : List (Token T σ)) :
    Except.Alike ParseError.unquoted Eq (closeGroup expression token frame stack) (closeGroup other token frame stack) := by
  unfold closeGroup
  split
  · cases stack <;> exact .ok _ _ rfl
  · split
    · exact .error _ _ rfl
    · exact .ok _ _ rfl

theorem accept_quoted :
    Except.Alike ParseError.unquoted Eq (accept expression state token) (accept other state token) := by
  have operator : Except.Alike ParseError.unquoted Eq (acceptOperator expression state token)
      (acceptOperator other state token) := by
    refine Except.alike_bind _ _ _ _ (placed_quoted expression other state token) ?_
    rintro settled _ rfl
    exact .ok _ _ rfl
  have separator : Except.Alike ParseError.unquoted Eq (acceptSeparator expression state token)
      (acceptSeparator other state token) := by
    unfold acceptSeparator
    by_cases outside : (!state.frames.head?.any Frame.isCall) = true
    · simp only [outside, if_true]
      exact .error _ _ rfl
    · by_cases opened : state.previous = some .openParen
      · simp only [outside, opened, if_true]
        exact .error _ _ rfl
      · simp only [outside, opened]
        refine Except.alike_bind _ _ _ _ (check_quoted expression other state token) ?_
        rintro _ _ rfl
        exact .ok _ _ rfl
  have close : Except.Alike ParseError.unquoted Eq (acceptClose expression state token) (acceptClose other state token) := by
    refine Except.alike_bind _ _ _ _ (check_quoted expression other state token) ?_
    rintro _ _ rfl
    cases state.stack.dropWhile (!isOpen ·) with
    | nil => exact .error _ _ rfl
    | cons opening below =>
        refine Except.alike_bind _ _ _ _ (group_quoted expression other token _ below) ?_
        rintro closed _ rfl
        exact .ok _ _ rfl
  unfold accept
  cases state.pending with
  | some span =>
      cases token.role with
      | openParen => exact .ok _ _ rfl
      | _ => exact .error _ _ rfl
  | none =>
      cases token.role with
      | leftOperator => exact operator
      | rightOperator => exact operator
      | closeParen => exact close
      | separator => exact separator
      | _ => exact .ok _ _ rfl

def Step (step next : List (Token T σ) × Order T σ) : Prop := List.Forall₂ Token.Twin step.1 next.1 ∧ step.2 = next.2

theorem twins_same (tokens : List (Token T σ)) : List.Forall₂ Token.Twin tokens tokens :=
  List.forall₂_same.mpr fun token _ => .same token

-- Words are let out at once, so nothing that waits has two forms.
theorem accept_twins (known : Token T σ) (twin : token.Twin known) :
    Except.Alike ParseError.unquoted Step (accept expression state token) (accept other state known) := by
  cases twin with
  | same =>
      rcases Except.alike_cases _ _ (accept_quoted expression other state token) with
        ⟨step, _, accepted, again, rfl⟩ | ⟨error, reason, refused, again, same⟩
      · rw [accepted, again]
        exact .ok _ _ ⟨twins_same _, rfl⟩
      · rw [refused, again]
        exact .error _ _ same
  | word name word action act twin span =>
      have role (name : String) (action : Action T σ) : (Token.ofTemplate (.operand name action) span).role = .operand := rfl
      simp only [accept, role]
      cases state.pending with
      | some span => exact .error _ _ rfl
      | none => exact .ok _ _ ⟨.cons (.word name word action act twin span) .nil, rfl⟩

theorem finish_quoted (width : Text.width expression.toList = Text.width other.toList) :
    Except.Alike ParseError.unquoted Eq (finish expression state) (finish other state) := by
  unfold finish
  cases state.pending with
  | some span => exact .error _ _ rfl
  | none =>
      simp only
      split
      · exact .error _ _ (by simp only [ParseError.unquoted, width])
      · cases state.stack.find? isOpen with
        | some token => exact .error _ _ rfl
        | none => exact .ok _ _ rfl

theorem order_twins (width : Text.width expression.toList = Text.width other.toList)
    (items others : List (Except ParseError (Token T σ)))
    (twins : List.Forall₂ (Except.Alike ParseError.unquoted Token.Twin) items others) :
    List.Forall₂ (Except.Alike ParseError.unquoted Token.Twin) (orderFrom expression state items)
      (orderFrom other state others) := by
  have out (tokens known : List (Token T σ)) (twins : List.Forall₂ Token.Twin tokens known) :
      List.Forall₂ (Except.Alike ParseError.unquoted Token.Twin) (tokens.map .ok) (known.map .ok) :=
    List.rel_map (fun _ _ twin => .ok _ _ twin) twins
  induction twins generalizing state with
  | nil =>
      rw [orderFrom, orderFrom]
      rcases Except.alike_cases _ _ (finish_quoted expression other state width) with
        ⟨tokens, _, finished, again, rfl⟩ | ⟨error, reason, refused, again, same⟩
      · rw [finished, again]
        exact out _ _ (twins_same tokens)
      · rw [refused, again]
        exact .cons (.error _ _ same) .nil
  | @cons item another rest more twin _ ih =>
      cases twin with
      | error error reason same => exact .cons (.error _ _ same) .nil
      | ok token known twin =>
          rw [orderFrom, orderFrom]
          rcases Except.alike_cases _ _ (accept_twins expression other state token known twin) with
            ⟨⟨tokens, after⟩, ⟨knowns, _⟩, accepted, again, released, rfl⟩ | ⟨error, reason, refused, again, same⟩
          · rw [accepted, again]
            exact List.rel_append (out _ _ released) (ih after)
          · rw [refused, again]
            exact .cons (.error _ _ same) .nil

end Order

namespace Postfix

theorem push_twins (token known : Token T σ) (twin : token.Twin known) (stack : List (Expr T σ)) :
    Except.Alike Error.unquoted Eq (push treeBuilder token stack) (push treeBuilder known stack) := by
  cases twin with
  | same => exact Except.alike_same _
  | word name other action act twin span =>
      cases twin with
      | literal value => exact .ok _ _ rfl
      | parameter index => exact .ok _ _ rfl
      | unknown name other => exact .error _ _ rfl

theorem located_twins (token known : Token T σ) (span : token.span = known.span) (error reason : Error)
    (same : error.unquoted = reason.unquoted) :
    (foldError (.build token error)).unquoted = (foldError (.build known reason)).unquoted := by
  cases error <;> cases reason <;> simp_all [foldError, Error.unquoted, EvalError.unquoted_locate]

theorem fold_twins (items others : List (Except Error (Token T σ)))
    (twins : List.Forall₂ (Except.Alike Error.unquoted Token.Twin) items others) (stack : List (Expr T σ)) :
    Except.Alike Error.unquoted Eq ((foldFrom treeBuilder stack items).mapError foldError)
      ((foldFrom treeBuilder stack others).mapError foldError) := by
  induction twins generalizing stack with
  | nil => exact Except.alike_same _
  | @cons item another rest more twin _ ih =>
      cases twin with
      | error error reason same => exact .error _ _ same
      | ok token known twin =>
          have span : token.span = known.span := by cases twin <;> rfl
          rw [foldFrom, foldFrom]
          rcases Except.alike_cases _ _ (push_twins token known twin stack) with
            ⟨value, _, pushed, again, rfl⟩ | ⟨error, reason, refused, again, same⟩
          · rw [pushed, again]
            exact ih value
          · rw [refused, again]
            exact .error _ _ (located_twins token known span error reason same)

end Postfix

namespace Evaluator

theorem built_caseless [Numeric T] [Caseless T] (settings : Settings T σ) (evaluator : Evaluator T σ)
    (built : settings.build = .ok evaluator) (insensitive : settings.flags.caseSensitive = false)
    (default : settings.reader = none) (blank : settings.whitespace = [])
    (ascii : ∀ entry ∈ evaluator.grammar.identifiers, ∀ c ∈ entry.template.name.toList, Text.isAscii c = true) :
    evaluator.grammar.Caseless := by
  obtain ⟨flags, whitespace, reader⟩ := Grammar.built_settings settings evaluator built
  refine ⟨(congrArg Flags.caseSensitive flags).trans insensitive, Grammar.built_symbols settings evaluator built, ascii,
    Grammar.reached_indexed _ (Grammar.built_reached settings evaluator built), whitespace.trans blank, ?_⟩
  intro text other start twins
  unfold Grammar.read
  rw [reader, default]
  exact Caseless.read text other start _ twins

theorem tree_twins (evaluator : Evaluator T σ) (caseless : evaluator.grammar.Caseless) (parameters : Parameters)
    (inputs : parameters.caseSensitive = false) (expression other : String)
    (twins : Text.Twins expression.toList other.toList) :
    Except.Alike Error.unquoted Eq ((evaluator.tree parameters expression).mapError foldError)
      ((evaluator.tree parameters other).mapError foldError) := by
  have tokens := (evaluator.source parameters expression).tokens_twins other 0 _ _ caseless inputs twins twins
  have ordered := Order.order_twins expression other Order.start (Text.twins_width _ _ twins) _ _ tokens
  refine Postfix.fold_twins _ _ (List.rel_map ?_ ordered) []
  rintro item another (⟨token, known, twin⟩ | ⟨error, reason, same⟩)
  · exact .ok _ _ twin
  · exact .error _ _ (congrArg Error.parse same)

-- Where letter case tells no names apart, it tells no expressions apart: two ASCII texts with one lower form compile
-- to one graph, spans included, or are refused for the same reason at the same place.
theorem letter_case_irrelevant [Numeric T] [Caseless T] (settings : Settings T σ) (evaluator : Evaluator T σ)
    (built : settings.build = .ok evaluator) (insensitive : settings.flags.caseSensitive = false)
    (default : settings.reader = none) (blank : settings.whitespace = [])
    (ascii : ∀ entry ∈ evaluator.grammar.identifiers, ∀ c ∈ entry.template.name.toList, Text.isAscii c = true)
    (names : List String) (expression other : String) (plain : ∀ c ∈ expression.toList, Text.isAscii c = true)
    (plainOther : ∀ c ∈ other.toList, Text.isAscii c = true)
    (same : Text.lowercase expression = Text.lowercase other) (optimize : Bool) (before : σ) :
    (∃ compiled after, (evaluator.compileWith expression names optimize).run before = (.ok compiled, after) ∧
      (evaluator.compileWith other names optimize).run before = (.ok { compiled with expression := other }, after)) ∨
    ∃ error reason, (evaluator.compileWith expression names optimize).run before = (.error error, before) ∧
      (evaluator.compileWith other names optimize).run before = (.error reason, before) ∧
      error.unquoted = reason.unquoted := by
  have caseless := built_caseless settings evaluator built insensitive default blank ascii
  have twins := Text.lowercase_twins expression other plain plainOther same
  cases bound : evaluator.grammar.bindParameters names with
  | error refused =>
      refine .inr ⟨.grammar refused, .grammar refused, ?_, ?_, rfl⟩
      all_goals
        simp only [compileWith, bound]
        rfl
  | ok parameters =>
      obtain ⟨rfl, -⟩ := (Grammar.bind_parameters_declared _ _ _).mp bound
      have trees := evaluator.tree_twins caseless ⟨names, evaluator.grammar.caseSensitive⟩ caseless.insensitive expression
        other twins
      rcases Except.alike_cases _ _ trees with ⟨e, _, found, known, rfl⟩ | ⟨error, reason, found, known, unquoted⟩
      · have tree := (Except.map_error_ok _ _ _).mp found
        have again := (Except.map_error_ok _ _ _).mp known
        refine .inl ⟨_, _, compile_run evaluator expression names optimize before _ e bound tree, ?_⟩
        rw [compile_run evaluator other names optimize before _ e bound again]
        cases optimize <;> rfl
      · exact .inr ⟨error, reason, compile_refused evaluator expression names optimize before _ error bound found,
          compile_refused evaluator other names optimize before _ reason bound known, unquoted⟩

def units : Settings (Integer .signed) Unit :=
  { integers with extensions := [⟨"units", none, [("Foot", .constant (Integer.ofBits .signed 12))]⟩] }

theorem units_case_irrelevant :
    ∃ evaluator program, units.build = .ok evaluator ∧
      (∀ entry ∈ evaluator.grammar.identifiers, ∀ c ∈ entry.template.name.toList, Text.isAscii c = true) ∧
      Text.lowercase "FOOT*0XfF+X" = Text.lowercase "foot*0xFf+x" ∧
      (evaluator.compileWith "FOOT*0XfF+X" ["x"] false).run () = (.ok program, ()) ∧
      (evaluator.compileWith "foot*0xFf+x" ["x"] false).run () = (.ok { program with expression := "foot*0xFf+x" }, ()) := by
  obtain ⟨evaluator, program, built, names, compiles⟩ :
      ∃ evaluator program, units.build = .ok evaluator ∧
        evaluator.grammar.identifiers.map (fun entry => entry.template.name) = ["if", "trunc", "Foot"] ∧
        (evaluator.compileWith "FOOT*0XfF+X" ["x"] false).run () = (.ok program, ()) := by
    refine ⟨_, ⟨"FOOT*0XfF+X", ["x"], ⟨#[.constant (Integer.ofBits .signed 12) (some "Foot"),
      .constant (Integer.ofBits .signed 255) none, .binary .mul 0 1 ⟨4, 5⟩, .parameter 0, .binary .add 2 3 ⟨9, 10⟩]⟩, none⟩,
      rfl, rfl, ?_⟩
    with_unfolding_all rfl
  have ascii : ∀ name ∈ ["if", "trunc", "Foot"], name.toList.all Text.isAscii = true := by decide
  have plain : ∀ entry ∈ evaluator.grammar.identifiers, ∀ c ∈ entry.template.name.toList, Text.isAscii c = true :=
    fun entry known => List.all_eq_true.mp (ascii _ (names ▸ List.mem_map_of_mem known))
  have same : Text.lowercase "FOOT*0XfF+X" = Text.lowercase "foot*0xFf+x" := by decide
  refine ⟨evaluator, program, built, plain, same, compiles, ?_⟩
  rcases letter_case_irrelevant units evaluator built rfl rfl rfl plain ["x"] "FOOT*0XfF+X" "foot*0xFf+x"
    (List.all_eq_true.mp (by decide)) (List.all_eq_true.mp (by decide)) same false () with
    ⟨compiled, after, done, again⟩ | ⟨error, reason, refused, -⟩
  · obtain ⟨found, -⟩ := Prod.mk.inj (compiles.symm.trans done)
    obtain rfl := Except.ok.inj found
    exact again
  · exact absurd (Prod.mk.inj (compiles.symm.trans refused)).1 (by simp)

end Evaluator

end Formula
