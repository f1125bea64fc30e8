import Formula.Proofs.Graph.Compiled
import Formula.Proofs.Text.Caret
import Formula.Proofs.Token.Tiling
import Formula.Proofs.Token.Waiting

set_option autoImplicit false

namespace Formula

variable {T σ : Type}

-- An error over characters of an expression, or where it ends too early, with the line that shows it.
structure ParseError.Points (error : ParseError) (expression : String) : Prop where
  source : error.expression = expression
  rendered : (Error.parse error).render expression = error.message ++ "\n" ++ error.pointer
  place : (∃ stop, error.stop = some stop ∧ Span.Marks ⟨error.start, stop⟩ expression error.pointer) ∨
    error.kind = .missingOperand ∧ error.start = Text.width expression.toList ∧ error.stop = none ∧
      error.pointer = Text.marked expression expression.toList.length 1

theorem unfinished_points (expression : String) : (Order.unfinished expression).Points expression :=
  ⟨rfl, rfl, .inr ⟨rfl, rfl, rfl, Text.caret_end expression⟩⟩

def Token.Stands (expression : String) (token : Token T σ) : Prop :=
  token.span.Marks expression (Text.caretLine expression token.span.start (some token.span.stop))

theorem Token.stands_points (expression : String) (token : Token T σ) (stands : token.Stands expression)
    (kind : ParseErrorKind) (details : String) : (Order.errorAt expression kind token.span details).Points expression :=
  ⟨rfl, rfl, .inl ⟨token.span.stop, rfl, stands⟩⟩

namespace Source

theorem finds_stands (source : Source T σ) (token : Token T σ) (found : source.Finds 0 source.text token) :
    token.Stands source.expression := by
  obtain ⟨before, piece, after, template, split, filled, -, rfl⟩ := found
  have marks := Span.marks_part source.expression before piece after filled split
  simpa only [Token.Stands, Token.ofTemplate, Nat.zero_add] using marks

theorem refuses_points (source : Source T σ) (before rest : List Char) (error : ParseError)
    (split : source.text = before ++ rest) (refused : source.Refuses (Text.width before) rest error) :
    error.Points source.expression := by
  obtain ⟨kind, length, details, ⟨positive, within⟩, rfl⟩ := refused
  have filled : rest.take length ≠ [] := by
    apply List.ne_nil_of_length_pos
    rw [List.length_take]
    omega
  have whole : source.expression.toList = before ++ rest.take length ++ rest.drop length := by
    rw [List.append_assoc, List.take_append_drop]
    exact split
  have marks := Span.marks_part source.expression before (rest.take length) (rest.drop length) filled whole
  rw [Text.width_append] at marks
  exact ⟨rfl, rfl, .inl ⟨_, rfl, marks⟩⟩

end Source

def Postfix.Failure.Comes {Tok E N : Type} (builder : Postfix.Builder Tok E N) (items : List (Except E Tok)) :
    Postfix.Failure Tok E → Prop
  | .stream error => .error error ∈ items
  | .build token error => .ok token ∈ items ∧ ∃ values, Postfix.push builder token values = .error error
  | .leftover _ => True

theorem fold_failed {Tok E N : Type} (builder : Postfix.Builder Tok E N) (items : List (Except E Tok)) (stack : List N)
    (failure : Postfix.Failure Tok E) (failed : Postfix.foldFrom builder stack items = .error failure) :
    failure.Comes builder items := by
  induction items generalizing stack with
  | nil =>
      unfold Postfix.foldFrom at failed
      split at failed
      · exact absurd failed (by simp)
      · obtain rfl := Except.error.inj failed
        trivial
  | cons item rest ih =>
      cases item with
      | error error =>
          obtain rfl := Except.error.inj failed
          exact List.mem_cons_self
      | ok token =>
          rw [Postfix.foldFrom] at failed
          cases pushed : Postfix.push builder token stack with
          | error error =>
              rw [pushed] at failed
              obtain rfl := Except.error.inj failed
              exact ⟨List.mem_cons_self, stack, pushed⟩
          | ok values =>
              rw [pushed] at failed
              have comes := ih values failed
              cases failure with
              | stream error => exact List.mem_cons_of_mem _ comes
              | build other error => exact ⟨List.mem_cons_of_mem _ comes.1, comes.2⟩
              | leftover count => trivial

def Unplaced {α : Type} (result : Except EvalError α) : Prop := ∀ error, result = .error error → error.span? = none

theorem unplaced_ok {α : Type} (value : α) : Unplaced (.ok value) := by simp [Unplaced]

theorem unplaced_error {α : Type} (error : EvalError) (unplaced : error.span? = none) :
    Unplaced (.error error : Except EvalError α) := by
  intro other same
  rw [← Except.error.inj same]
  exact unplaced

theorem unplaced_bind {α β : Type} (first : Except EvalError α) (next : α → Except EvalError β) (unplaced : Unplaced first)
    (each : ∀ value, Unplaced (next value)) : Unplaced (first >>= next) := by
  cases first with
  | ok value => exact each value
  | error error => exact unplaced_error error (unplaced error rfl)

theorem unplaced_map {α β : Type} (first : Except EvalError α) (next : α → β) (unplaced : Unplaced first) :
    Unplaced (first.map next) := by
  cases first with
  | ok value => exact unplaced_ok _
  | error error => exact unplaced_error error (unplaced error rfl)

namespace Token

variable (token : Token T σ) (stack : Option (List (Expr T σ)))

theorem take_unplaced (arity : Nat) : Unplaced (token.take stack arity) := by
  unfold take
  by_cases counted : token.argc.getD arity ≠ arity
  · rw [if_pos counted]
    exact unplaced_error _ rfl
  · rw [if_neg counted]
    cases stack with
    | none => exact unplaced_error _ rfl
    | some stack =>
        by_cases short : stack.length < arity
        · simp only [if_pos short]
          exact unplaced_error _ rfl
        · simp only [if_neg short]
          exact unplaced_ok _

theorem build_unplaced : Unplaced (token.build stack) := by
  unfold build
  cases token.form.action with
  | unknown name => exact unplaced_error _ rfl
  | punctuation => exact unplaced_error _ rfl
  | call routine => exact unplaced_bind _ _ (token.take_unplaced stack routine.arity) fun _ => unplaced_ok _
  | unary | convert | binary | conditional =>
      refine unplaced_bind _ _ (token.take_unplaced stack _) fun value => ?_
      split
      · exact unplaced_ok _
      · exact unplaced_error _ rfl
  | _ => exact unplaced_ok _

end Token

theorem push_unplaced (token : Token T σ) (values : List (Expr T σ)) (error : Error)
    (failed : Postfix.push treeBuilder token values = .error error) :
    ∃ reason, error = .eval reason ∧ reason.span? = none := by
  have failure {α β : Type} (built : Except EvalError α) (unplaced : Unplaced built) (next : α → β)
      (failed : (built.mapError Error.eval).map next = .error error) : ∃ reason, error = .eval reason ∧ reason.span? = none := by
    cases built with
    | ok value => exact absurd failed (by simp [Except.mapError, Except.map])
    | error reason => exact ⟨reason, (Except.error.inj failed).symm, unplaced reason rfl⟩
  unfold Postfix.push at failed
  by_cases leaf : treeBuilder.isOperand token = true
  · rw [if_pos leaf] at failed
    exact failure (Token.builder.leaf token) (unplaced_map _ _ (token.build_unplaced none)) _ failed
  · rw [if_neg leaf] at failed
    exact failure (Token.builder.node token values) (token.build_unplaced (some values)) _ failed

theorem tree_failed (items : List (Except ParseError (Token T σ))) (failure : Postfix.Failure (Token T σ) Error)
    (failed : foldTree items = .error failure) :
    (∃ error, foldError failure = .parse error ∧ .error error ∈ items) ∨
      ∃ error, foldError failure = .eval error ∧
        ∀ span, error.span? = some span → ∃ token, .ok token ∈ items ∧ token.span = span := by
  have comes := fold_failed treeBuilder _ [] failure failed
  cases failure with
  | stream error =>
      obtain ⟨item, member, same⟩ := List.mem_map.mp comes
      cases item with
      | ok token => exact absurd same (by simp [Except.mapError])
      | error reason => exact .inl ⟨reason, (Except.error.inj same).symm, member⟩
  | build token error =>
      obtain ⟨from_stream, values, pushed⟩ := comes
      obtain ⟨item, member, same⟩ := List.mem_map.mp from_stream
      obtain ⟨reason, rfl, unplaced⟩ := push_unplaced token values error pushed
      cases item with
      | error _ => exact absurd same (by simp [Except.mapError])
      | ok other =>
          obtain rfl := Except.ok.inj same
          refine .inr ⟨reason.locate other.span, rfl, fun span placed => ⟨other, member, ?_⟩⟩
          cases reason <;> simp_all [EvalError.locate, EvalError.span?]
  | leftover count =>
      refine .inr ⟨Postfix.leftoverError count, rfl, fun span placed => absurd placed ?_⟩
      cases count <;> simp [Postfix.leftoverError, EvalError.span?]

namespace Evaluator

theorem span_lasting (places : Span → Prop) : Token.Lasting fun token : Token T σ => places token.span :=
  ⟨fun _ _ place _ => place, fun _ _ place => place⟩

section

variable [Numeric T] (settings : Settings T σ) (evaluator : Evaluator T σ) (built : settings.build = .ok evaluator)
  (names : List String) (parameters : Parameters) (bound : evaluator.grammar.bindParameters names = .ok parameters)
  (expression : String)

include built bound

theorem tokens_point :
    (∀ token, .ok token ∈ (evaluator.source parameters expression).tokens → token.Stands expression) ∧
      ∀ error, .error error ∈ (evaluator.source parameters expression).tokens → error.Points expression := by
  obtain ⟨tokens, failure, listed, tiled, found⟩ :=
    Source.tokens_tile settings evaluator built names parameters bound evaluator.allowUnknown expression
  have items : (evaluator.source parameters expression).tokens = tokens.map .ok ++ failure.toList.map .error := listed
  rw [items]
  refine ⟨fun token member => ?_, fun error member => ?_⟩
  · have known : token ∈ tokens := by simpa using member
    exact Source.finds_stands _ token (found token known)
  · have failed : failure = some error := by simpa using member
    obtain ⟨⟨before, c, after, split, place, -, scanned⟩, -⟩ := tiled.refused error failed
    rw [Nat.zero_add] at place
    have refused := Source.scan_refused _ error.start c after error scanned
    exact Source.refuses_points _ before (c :: after) error split (place ▸ refused)

theorem order_points :
    let source := evaluator.source parameters expression
    (∀ token, .ok token ∈ Postfix.order expression source.tokens → ∃ origin, .ok origin ∈ source.tokens ∧
      origin.span = token.span) ∧
      ∀ error, .error error ∈ Postfix.order expression source.tokens → error.Points expression := by
  intro source
  obtain ⟨stands, points⟩ := tokens_point settings evaluator built names parameters bound expression
  let places (span : Span) : Prop := ∃ origin, .ok origin ∈ source.tokens ∧ origin.span = span
  obtain ⟨placed, refused⟩ := Order.order_settles expression (fun token : Token T σ => places token.span)
    (span_lasting places) Order.start (Order.start_keeps _) source.tokens fun token member => ⟨token, member, rfl⟩
  refine ⟨placed, fun error member => ?_⟩
  rcases refused error member with lexical | ⟨token, kind, details, ⟨origin, listed, same⟩, rfl⟩ | rfl
  · exact points error lexical
  · rw [← same]
    exact origin.stands_points expression (stands origin listed) kind details
  · exact unfinished_points expression

end

theorem infos_cons (text : List Char) (token : Token T σ) (items : List (Except ParseError (Token T σ))) :
    infos text (.ok token :: items) = (infos text items).map (TokenInfo.ofToken text token :: ·) := by
  have step : infos text (.ok token :: items) =
      (infos text items >>= fun found => pure (TokenInfo.ofToken text token :: found)) := List.mapM_cons
  rw [step]
  cases infos text items <;> rfl

theorem infos_failed (text : List Char) (items : List (Except ParseError (Token T σ))) (error : Error)
    (failed : infos text items = .error error) : ∃ reason, error = .parse reason ∧ .error reason ∈ items := by
  induction items with
  | nil => exact absurd failed (by simp [infos, pure, Except.pure])
  | cons item rest ih =>
      cases item with
      | error reason =>
          rw [infos, List.mapM_cons] at failed
          exact ⟨reason, (Except.error.inj failed).symm, List.mem_cons_self⟩
      | ok token =>
          rw [infos_cons] at failed
          cases later : infos text rest with
          | ok found => exact absurd failed (by simp [later, Except.map])
          | error other =>
              rw [later] at failed
              obtain rfl := Except.error.inj failed
              obtain ⟨reason, parsed, member⟩ := ih later
              exact ⟨reason, parsed, List.mem_cons_of_mem _ member⟩

theorem infos_listed (evaluator : Evaluator T σ) (text : List Char) (names : List String)
    (items : Parameters → List (Except ParseError (Token T σ))) (error : ParseError)
    (failed : ((evaluator.grammar.bindParameters names).mapError .grammar >>= fun parameters =>
      infos text (items parameters)) = .error (.parse error)) :
    ∃ parameters, evaluator.grammar.bindParameters names = .ok parameters ∧ .error error ∈ items parameters := by
  cases bound : evaluator.grammar.bindParameters names with
  | error refused => exact absurd failed (by simp [bound, Except.mapError, bind, Except.bind])
  | ok parameters =>
      rw [bound] at failed
      obtain ⟨reason, same, member⟩ := infos_failed text (items parameters) (.parse error) failed
      obtain rfl := Error.parse.inj same
      exact ⟨parameters, rfl, member⟩

-- What a text is refused for lies over characters of it, or where it ends too early; what cannot be built from it lies
-- over one of its tokens. A user is shown as many carets as there are characters, below them.
theorem errors_point [Numeric T] (settings : Settings T σ) (evaluator : Evaluator T σ)
    (built : settings.build = .ok evaluator) (expression : String) (names : List String) :
    (∀ error, evaluator.tokenize expression names = .error (.parse error) → error.Points expression) ∧
    (∀ error, evaluator.postfix? expression names = .error (.parse error) → error.Points expression) ∧
    ∀ optimize before after,
      (∀ error, (evaluator.compileWith expression names optimize).run before = (.error (.parse error), after) →
        error.Points expression) ∧
      ∀ error span, (evaluator.compileWith expression names optimize).run before = (.error (.eval error), after) →
        error.span? = some span →
          ∃ parameters token shown, evaluator.grammar.bindParameters names = .ok parameters ∧
            .ok token ∈ (evaluator.source parameters expression).tokens ∧ token.span = span ∧
            span.Marks expression shown ∧ (Error.eval error).render expression = error.message ++ "\n" ++ shown := by
  refine ⟨fun error failed => ?_, fun error failed => ?_, fun optimize before after => ?_⟩
  · obtain ⟨parameters, bound, member⟩ :=
      infos_listed evaluator expression.toList names (fun parameters => (evaluator.source parameters expression).tokens) error
        failed
    exact (tokens_point settings evaluator built names parameters bound expression).2 error member
  · obtain ⟨parameters, bound, member⟩ :=
      infos_listed evaluator expression.toList names
        (fun parameters => Postfix.order expression (evaluator.source parameters expression).tokens) error failed
    exact (order_points settings evaluator built names parameters bound expression).2 error member
  · refine ⟨fun error failed => ?_, fun error span failed place => ?_⟩
    · rcases evaluator.compile_failed expression names optimize before after _ failed with
        ⟨refused, -, same⟩ | ⟨parameters, failure, bound, treeless, same⟩
      · exact absurd same (by simp)
      · obtain ⟨-, points⟩ := order_points settings evaluator built names parameters bound expression
        rcases tree_failed _ failure treeless with ⟨reason, parsed, member⟩ | ⟨reason, evaluated, -⟩
        · obtain rfl := Error.parse.inj (same.trans parsed)
          exact points error member
        · exact absurd (same.trans evaluated) (by simp)
    · rcases evaluator.compile_failed expression names optimize before after _ failed with
        ⟨refused, -, same⟩ | ⟨parameters, failure, bound, treeless, same⟩
      · exact absurd same (by simp)
      · obtain ⟨stands, -⟩ := tokens_point settings evaluator built names parameters bound expression
        obtain ⟨placed, -⟩ := order_points settings evaluator built names parameters bound expression
        rcases tree_failed _ failure treeless with ⟨reason, parsed, -⟩ | ⟨reason, evaluated, located⟩
        · exact absurd (same.trans parsed) (by simp)
        · obtain rfl := Error.eval.inj (same.trans evaluated)
          obtain ⟨token, ordered, rfl⟩ := located span place
          obtain ⟨origin, member, same⟩ := placed token ordered
          have marks := stands origin member
          rw [Token.Stands, same] at marks
          refine ⟨parameters, origin, _, bound, member, same, marks, ?_⟩
          simp only [Error.render, EvalError.render, place]

-- A character that a reader would have cut, and a call that lacks arguments.
theorem hasty_errors_point :
    ∃ evaluator error reason, Source.hasty.build = .ok evaluator ∧
      (evaluator.compileWith "x é" ["x"] true).run () = (.error (.parse error), ()) ∧ error.Points "x é" ∧
      (evaluator.compileWith "é - if(x)" ["x", "é"] true).run () = (.error (.eval (.located ⟨5, 7⟩ reason)), ()) ∧
      ∃ shown, Span.Marks ⟨5, 7⟩ "é - if(x)" shown := by
  obtain ⟨evaluator, built, error, reason, refused, unbuilt⟩ :
      ∃ evaluator, Source.hasty.build = .ok evaluator ∧ ∃ error reason,
        (evaluator.compileWith "x é" ["x"] true).run () = (.error (.parse error), ()) ∧
        (evaluator.compileWith "é - if(x)" ["x", "é"] true).run () = (.error (.eval (.located ⟨5, 7⟩ reason)), ()) :=
    ⟨_, rfl, _, _, by with_unfolding_all rfl, by with_unfolding_all rfl⟩
  obtain ⟨-, -, points⟩ := errors_point Source.hasty evaluator built "x é" ["x"]
  obtain ⟨-, -, placed⟩ := errors_point Source.hasty evaluator built "é - if(x)" ["x", "é"]
  obtain ⟨-, -, shown, -, -, -, marks, -⟩ := (placed true () ()).2 _ _ unbuilt rfl
  exact ⟨evaluator, error, reason, built, refused, (points true () ()).1 error refused, unbuilt, shown, marks⟩

end Evaluator

end Formula
