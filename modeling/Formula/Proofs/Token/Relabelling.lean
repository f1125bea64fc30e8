import Formula.Evaluator
import Formula.Proofs.Graph.Relabelling

set_option autoImplicit false

namespace Formula

variable {T σ : Type}

def Role.isWord : Role → Bool
  | operand | function => true
  | _ => false

section

variable (labels : Labels)

def Action.relabelled : Action T σ → Action T σ
  | .bound name value => .bound (labels.name name) value
  | .parameter index => .parameter (labels.slot index)
  | .member source => .member (source.respelled labels.name)
  | .call routine => .call (routine.respelled labels.name)
  | action => action

def Form.relabelled (form : Form T σ) : Form T σ :=
  { form with
    name := if form.role.isWord then labels.name form.name else form.name
    action := form.action.relabelled labels }

def Template.relabelled (template : Template T σ) : Template T σ :=
  ⟨template.form.relabelled labels, template.alone.map (Form.relabelled labels)⟩

def Token.relabelled (token : Token T σ) : Token T σ :=
  { token with form := token.form.relabelled labels, alone := token.alone.map (Form.relabelled labels) }

def Order.relabelled (state : Order T σ) : Order T σ := { state with stack := state.stack.map (Token.relabelled labels) }

theorem Form.relabelled_prefix (form : Form T σ) : (form.relabelled labels).isPrefix = form.isPrefix := by
  obtain ⟨name, role, precedence, action⟩ := form
  cases action <;> rfl

theorem Token.relabelled_name (token : Token T σ) (sign : token.role.isWord = false) :
    (token.relabelled labels).name = token.name := by
  change (if token.role.isWord then labels.name token.form.name else token.form.name) = token.form.name
  rw [sign]
  rfl

namespace Order

def stepRelabelled (step : List (Token T σ) × Order T σ) : List (Token T σ) × Order T σ :=
  (step.1.map (Token.relabelled labels), step.2.relabelled labels)

variable (expression : String) (state : Order T σ) (token : Token T σ)

theorem relabelled_placed (sign : token.role.isWord = false) :
    placed expression (state.relabelled labels) (token.relabelled labels) =
      (placed expression state token).map (Token.relabelled labels) := by
  have named := token.relabelled_name labels sign
  have before : (token.relabelled labels).form.isPrefix = token.form.isPrefix := token.form.relabelled_prefix labels
  have expects : (state.relabelled labels).expectsOperand = state.expectsOperand := rfl
  have alone : (token.relabelled labels).alone = token.alone.map (Form.relabelled labels) := rfl
  rw [placed, placed, expects, before, alone, named]
  by_cases operand : state.expectsOperand = true
  · rw [if_pos operand, if_pos operand]
    by_cases leading : token.form.isPrefix = true
    · rw [if_pos leading, if_pos leading]
      rfl
    · rw [if_neg leading, if_neg leading]
      cases token.alone <;> rfl
  · rw [if_neg operand, if_neg operand]
    by_cases leading : token.form.isPrefix = true
    · rw [if_pos leading, if_pos leading]
      rfl
    · rw [if_neg leading, if_neg leading]
      rfl

theorem relabelled_operator (sign : token.role.isWord = false) :
    acceptOperator expression (state.relabelled labels) (token.relabelled labels) =
      (acceptOperator expression state token).map (stepRelabelled labels) := by
  rw [acceptOperator, acceptOperator, relabelled_placed labels expression state token sign]
  cases placed expression state token with
  | error error => rfl
  | ok settled =>
      have releases : (releases (settled.relabelled labels) ∘ Token.relabelled labels : Token T σ → Bool) = releases settled := rfl
      simp only [Except.map, bind, Except.bind, pure, Except.pure, relabelled, stepRelabelled, List.takeWhile_map,
        List.dropWhile_map, releases, List.map_cons]
      rfl

theorem relabelled_check (sign : token.role.isWord = false) :
    checkOperand expression (state.relabelled labels) (token.relabelled labels) = checkOperand expression state token := by
  rw [checkOperand, checkOperand, token.relabelled_name labels sign]
  rfl

theorem relabelled_waiting (stack : List (Token T σ)) :
    (stack.map (Token.relabelled labels)).takeWhile (!isOpen ·) = (stack.takeWhile (!isOpen ·)).map (Token.relabelled labels) ∧
      (stack.map (Token.relabelled labels)).dropWhile (!isOpen ·) =
        (stack.dropWhile (!isOpen ·)).map (Token.relabelled labels) := by
  rw [List.takeWhile_map, List.dropWhile_map]
  exact ⟨rfl, rfl⟩

theorem relabelled_separator (sign : token.role.isWord = false) :
    acceptSeparator expression (state.relabelled labels) (token.relabelled labels) =
      (acceptSeparator expression state token).map (stepRelabelled labels) := by
  obtain ⟨above, below⟩ := relabelled_waiting labels state.stack
  have frames : (state.relabelled labels).frames = state.frames := rfl
  have previous : (state.relabelled labels).previous = state.previous := rfl
  have stack : (state.relabelled labels).stack = state.stack.map (Token.relabelled labels) := rfl
  rw [acceptSeparator, acceptSeparator, relabelled_check labels expression state token sign, frames, previous, stack, above,
    below]
  by_cases inside : (!state.frames.head?.any Frame.isCall) = true
  · rw [if_pos inside, if_pos inside]
    rfl
  · rw [if_neg inside, if_neg inside]
    by_cases opened : state.previous = some .openParen
    · rw [if_pos opened, if_pos opened]
      rfl
    · rw [if_neg opened, if_neg opened]
      cases checkOperand expression state token <;> rfl

theorem relabelled_group (frame : Frame) (stack : List (Token T σ)) :
    closeGroup expression (token.relabelled labels) frame (stack.map (Token.relabelled labels)) =
      (closeGroup expression token frame stack).map fun (completed, rest) =>
        (completed.map (Token.relabelled labels), rest.map (Token.relabelled labels)) := by
  unfold closeGroup
  by_cases call : frame.isCall = true
  · rw [if_pos call, if_pos call]
    cases stack <;> rfl
  · rw [if_neg call, if_neg call]
    by_cases blank : frame.isBlank = true
    · rw [if_pos blank, if_pos blank]
      rfl
    · rw [if_neg blank, if_neg blank]
      rfl

theorem relabelled_close (sign : token.role.isWord = false) :
    acceptClose expression (state.relabelled labels) (token.relabelled labels) =
      (acceptClose expression state token).map (stepRelabelled labels) := by
  obtain ⟨above, below⟩ := relabelled_waiting labels state.stack
  have stack : (state.relabelled labels).stack = state.stack.map (Token.relabelled labels) := rfl
  have frames : (state.relabelled labels).frames = state.frames := rfl
  rw [acceptClose, acceptClose, relabelled_check labels expression state token sign, frames, stack, above, below]
  cases checkOperand expression state token with
  | error error => rfl
  | ok _ =>
      cases state.stack.dropWhile (!isOpen ·) with
      | nil => rfl
      | cons opening waiting =>
          have group := relabelled_group labels expression token (state.frames.headD ⟨false, 0, false⟩) waiting
          simp only [bind, Except.bind, List.map_cons, group]
          cases closeGroup expression token (state.frames.headD ⟨false, 0, false⟩) waiting with
          | error error => rfl
          | ok closed =>
              simp only [Except.map, pure, Except.pure, stepRelabelled, List.map_append]
              rfl

theorem relabelled_accept :
    accept expression (state.relabelled labels) (token.relabelled labels) =
      (accept expression state token).map (stepRelabelled labels) := by
  have role : (token.relabelled labels).role = token.role := rfl
  have pending : (state.relabelled labels).pending = state.pending := rfl
  rw [accept, accept, pending, role]
  cases state.pending with
  | some span => cases token.role <;> rfl
  | none =>
      cases is : token.role with
      | leftOperator => exact relabelled_operator labels expression state token (by rw [is]; rfl)
      | rightOperator => exact relabelled_operator labels expression state token (by rw [is]; rfl)
      | closeParen => exact relabelled_close labels expression state token (by rw [is]; rfl)
      | separator => exact relabelled_separator labels expression state token (by rw [is]; rfl)
      | _ => rfl

theorem relabelled_finish :
    finish expression (state.relabelled labels) = (finish expression state).map (List.map (Token.relabelled labels)) := by
  have pending : (state.relabelled labels).pending = state.pending := rfl
  have previous : (state.relabelled labels).previous = state.previous := rfl
  have found : (state.relabelled labels).stack.find? isOpen = (state.stack.find? isOpen).map (Token.relabelled labels) := by
    change (state.stack.map (Token.relabelled labels)).find? isOpen = _
    rw [List.find?_map]
    rfl
  rw [finish, finish, pending, previous, found]
  cases state.pending with
  | some span => rfl
  | none =>
      by_cases operator : state.previous.any Role.isOperator = true
      · simp only [operator, if_true]
        rfl
      · simp only [operator, Bool.false_eq_true, if_false]
        cases state.stack.find? isOpen <;> rfl

theorem relabelled_order (items : List (Except ParseError (Token T σ))) :
    orderFrom expression (state.relabelled labels) (items.map (Except.map (Token.relabelled labels))) =
      (orderFrom expression state items).map (Except.map (Token.relabelled labels)) := by
  induction items generalizing state with
  | nil =>
      rw [List.map_nil, orderFrom, orderFrom, relabelled_finish]
      cases finish expression state with
      | error error => rfl
      | ok tokens =>
          simp only [Except.map, List.map_map]
          rfl
  | cons item rest ih =>
      cases item with
      | error error => rfl
      | ok token =>
          have accepted := relabelled_accept labels expression state token
          rw [List.map_cons, Except.map, orderFrom, orderFrom, accepted]
          cases accept expression state token with
          | error error => rfl
          | ok step =>
              obtain ⟨out, next⟩ := step
              simp only [Except.map, stepRelabelled, ih next, List.map_append, List.map_map]
              rfl

end Order

end

-- What is left of an error when the labels in it are left out.
structure Labels.Blank (labels : Labels) (blank : EvalError → EvalError) : Prop where
  count : ∀ name expected found, blank (.argumentCount (labels.name name) expected found) =
    blank (.argumentCount name expected found)
  missing : ∀ name, blank (.malformed s!"'{labels.name name}' is missing an operand") =
    blank (.malformed s!"'{name}' is missing an operand")
  unexpected : ∀ name, blank (.malformed s!"unexpected '{labels.name name}'") = blank (.malformed s!"unexpected '{name}'")
  located : ∀ error span, blank (error.locate span) = (blank error).locate span

theorem Labels.blank_nothing (labels : Labels) (same : labels.name = id) : labels.Blank id := by
  constructor <;> simp [same]

def Error.blanked (blank : EvalError → EvalError) : Error → Error
  | eval error => eval (blank error)
  | error => error

theorem Error.blanked_nothing : Error.blanked id = id := by
  funext error
  cases error <;> rfl

def Except.Respelled {α β E : Type} (respell : β → α) (blank : E → E) (found : Except E α) (plain : Except E β) : Prop :=
  found.mapError blank = (plain.map respell).mapError blank

namespace Except

variable {α β γ δ E : Type} (respell : β → α) (again : δ → γ) (blank : E → E)

theorem respelled_cases (found : Except E α) (plain : Except E β) (same : Respelled respell blank found plain) :
    (∃ value, plain = .ok value ∧ found = .ok (respell value)) ∨
      ∃ error other, plain = .error error ∧ found = .error other ∧ blank other = blank error := by
  cases found with
  | ok value =>
      cases plain with
      | ok other => exact .inl ⟨other, rfl, congrArg Except.ok (Except.ok.inj same)⟩
      | error error => exact absurd same (by simp [Respelled, Except.mapError, Except.map])
  | error error =>
      cases plain with
      | ok other => exact absurd same (by simp [Respelled, Except.mapError, Except.map])
      | error other => exact .inr ⟨other, error, rfl, rfl, Except.error.inj same⟩

theorem respelled_bind (found : Except E α) (plain : Except E β) (next : α → Except E γ) (later : β → Except E δ)
    (same : Respelled respell blank found plain) (each : ∀ value, Respelled again blank (next (respell value)) (later value)) :
    Respelled again blank (found >>= next) (plain >>= later) := by
  rcases respelled_cases respell blank found plain same with ⟨value, rfl, rfl⟩ | ⟨error, other, rfl, rfl, blanks⟩
  · exact each value
  · exact congrArg Except.error blanks

theorem respelled_exact (found : Except E α) (plain : Except E β) (same : Respelled respell id found plain) :
    found = plain.map respell := by
  rcases respelled_cases respell id found plain same with ⟨value, rfl, rfl⟩ | ⟨error, other, rfl, rfl, rfl⟩
  · rfl
  · rfl

end Except

namespace Token

variable (labels : Labels) (blank : EvalError → EvalError) (blanks : labels.Blank blank)

def takenRelabelled (taken : List (Expr T σ) × List (Expr T σ)) : List (Expr T σ) × List (Expr T σ) :=
  (taken.1.map (Expr.relabelled labels), taken.2.map (Expr.relabelled labels))

def builtRelabelled (built : Expr T σ × List (Expr T σ)) : Expr T σ × List (Expr T σ) :=
  (built.1.relabelled labels, built.2.map (Expr.relabelled labels))

theorem relabelled_words (token : Token T σ) (words : String → EvalError)
    (silent : ∀ name, blank (words (labels.name name)) = blank (words name)) :
    blank (words (token.relabelled labels).name) = blank (words token.name) := by
  cases word : token.role.isWord with
  | false => rw [token.relabelled_name labels word]
  | true =>
      have named : (token.relabelled labels).name = labels.name token.name := if_pos word
      rw [named, silent]

variable (token : Token T σ) (stack : Option (List (Expr T σ)))

include blanks

theorem relabelled_missing : blank (token.relabelled labels).missing = blank token.missing :=
  relabelled_words labels blank token (fun name => .malformed s!"'{name}' is missing an operand") blanks.missing

theorem relabelled_take (arity : Nat) :
    Except.Respelled (takenRelabelled labels) blank
      ((token.relabelled labels).take (stack.map (List.map (Expr.relabelled labels))) arity) (token.take stack arity) := by
  have argc : (token.relabelled labels).argc = token.argc := rfl
  have missing := token.relabelled_missing labels blank blanks
  unfold take
  rw [argc]
  by_cases counted : token.argc.getD arity ≠ arity
  · rw [if_pos counted, if_pos counted]
    exact congrArg Except.error (relabelled_words labels blank token
      (fun name => .argumentCount name arity (token.argc.getD arity)) fun name => blanks.count name _ _)
  · rw [if_neg counted, if_neg counted]
    cases stack with
    | none => exact congrArg Except.error missing
    | some stack =>
        simp only [Option.map_some, List.length_map]
        by_cases short : stack.length < arity
        · rw [if_pos short, if_pos short]
          exact congrArg Except.error missing
        · rw [if_neg short, if_neg short]
          simp only [Except.Respelled, Except.map, takenRelabelled, List.map_reverse, List.map_take, List.map_drop]

omit blanks in
theorem relabelled_leaf (shape : Shape T σ (Expr T σ)) (leaf : shape.children = []) :
    Except.Respelled (builtRelabelled labels) blank
      (.ok (.node (shape.relabelled labels), (stack.map (List.map (Expr.relabelled labels))).getD []))
      (.ok (.node shape, stack.getD [])) := by
  have same : shape.map (Expr.relabelled labels) = shape := by
    cases shape <;> simp_all [Shape.map, Shape.children]
  have below : (stack.map (List.map (Expr.relabelled labels))).getD [] = (stack.getD []).map (Expr.relabelled labels) := by
    cases stack <;> rfl
  simp only [Except.Respelled, Except.map, builtRelabelled, Expr.relabelled_node, same, below]

theorem relabelled_build :
    Except.Respelled (builtRelabelled labels) blank
      ((token.relabelled labels).build (stack.map (List.map (Expr.relabelled labels)))) (token.build stack) := by
  have taken := token.relabelled_take labels blank blanks stack
  have missing := token.relabelled_missing labels blank blanks
  have does : (token.relabelled labels).form.action = token.form.action.relabelled labels := rfl
  unfold build
  rw [does]
  cases token.form.action with
  | literal value => exact relabelled_leaf labels blank stack (.constant value none) rfl
  | bound name value => exact relabelled_leaf labels blank stack (.constant value (some name)) rfl
  | parameter index => exact relabelled_leaf labels blank stack (.parameter index) rfl
  | member source => exact relabelled_leaf labels blank stack (.member source) rfl
  | unknown name => rfl
  | punctuation =>
      exact congrArg Except.error (relabelled_words labels blank token
        (fun name => .malformed s!"unexpected '{name}'") blanks.unexpected)
  | unary op =>
      refine Except.respelled_bind (takenRelabelled labels) _ _ _ _ _ _ (taken 1) fun value => ?_
      rcases value with ⟨_ | ⟨operand, _ | ⟨next, more⟩⟩, rest⟩ <;> first | rfl | exact congrArg Except.error missing
  | convert conversion =>
      refine Except.respelled_bind (takenRelabelled labels) _ _ _ _ _ _ (taken 1) fun value => ?_
      rcases value with ⟨_ | ⟨operand, _ | ⟨next, more⟩⟩, rest⟩ <;> first | rfl | exact congrArg Except.error missing
  | binary op =>
      refine Except.respelled_bind (takenRelabelled labels) _ _ _ _ _ _ (taken 2) fun value => ?_
      rcases value with ⟨_ | ⟨left, _ | ⟨right, _ | ⟨next, more⟩⟩⟩, rest⟩ <;>
        first | rfl | exact congrArg Except.error missing
  | conditional =>
      refine Except.respelled_bind (takenRelabelled labels) _ _ _ _ _ _ (taken 3) fun value => ?_
      rcases value with ⟨_ | ⟨condition, _ | ⟨accepted, _ | ⟨rejected, _ | ⟨next, more⟩⟩⟩⟩, rest⟩ <;>
        first | rfl | exact congrArg Except.error missing
  | call routine =>
      refine Except.respelled_bind (takenRelabelled labels) _ _ _ _ _ _ (taken routine.arity) fun value => ?_
      obtain ⟨args, rest⟩ := value
      simp only [Except.Respelled, pure, Except.pure, Except.map, takenRelabelled, builtRelabelled, Expr.relabelled_node]
      rfl

theorem relabelled_push (token : Token T σ) (stack : List (Expr T σ)) :
    Except.Respelled (List.map (Expr.relabelled labels)) (Error.blanked blank)
      (Postfix.push treeBuilder (token.relabelled labels) (stack.map (Expr.relabelled labels)))
      (Postfix.push treeBuilder token stack) := by
  have operand : treeBuilder.isOperand (token.relabelled labels) = treeBuilder.isOperand token := rfl
  unfold Postfix.push
  rw [operand]
  by_cases leaf : treeBuilder.isOperand token = true
  · rw [if_pos leaf, if_pos leaf]
    have built : Except.Respelled (builtRelabelled labels) blank ((token.relabelled labels).build none)
        (token.build none) := token.relabelled_build labels blank blanks none
    simp only [treeBuilder, Token.builder]
    rcases Except.respelled_cases _ _ _ _ built with ⟨value, plain, found⟩ | ⟨error, other, plain, found, silent⟩
    · rw [plain, found]
      rfl
    · rw [plain, found]
      exact congrArg (Except.error ∘ Error.eval) silent
  · rw [if_neg leaf, if_neg leaf]
    have built : Except.Respelled (builtRelabelled labels) blank
        ((token.relabelled labels).build (some (stack.map (Expr.relabelled labels)))) (token.build (some stack)) :=
      token.relabelled_build labels blank blanks (some stack)
    simp only [treeBuilder, Token.builder]
    rcases Except.respelled_cases _ _ _ _ built with ⟨value, plain, found⟩ | ⟨error, other, plain, found, silent⟩
    · rw [plain, found]
      rfl
    · rw [plain, found]
      exact congrArg (Except.error ∘ Error.eval) silent

theorem located_blanked (token other : Token T σ) (span : other.span = token.span) (error reason : Error)
    (same : reason.blanked blank = error.blanked blank) :
    (foldError (.build other reason)).blanked blank = (foldError (.build token error)).blanked blank := by
  cases error with
  | eval error =>
      cases reason with
      | eval reason =>
          have silent : blank reason = blank error := Error.eval.inj same
          simp only [foldError, Error.blanked, blanks.located, silent, span]
      | _ => exact absurd same (by simp [Error.blanked])
  | parse error =>
      cases reason with
      | parse reason => exact same
      | _ => exact absurd same (by simp [Error.blanked])
  | grammar error =>
      cases reason with
      | grammar reason => exact same
      | _ => exact absurd same (by simp [Error.blanked])

theorem relabelled_fold (items : List (Except Error (Token T σ))) (stack : List (Expr T σ)) :
    Except.Respelled (Expr.relabelled labels) (Error.blanked blank)
      ((Postfix.foldFrom treeBuilder (stack.map (Expr.relabelled labels))
        (items.map (Except.map (Token.relabelled labels)))).mapError foldError)
      ((Postfix.foldFrom treeBuilder stack items).mapError foldError) := by
  induction items generalizing stack with
  | nil =>
      rcases stack with _ | ⟨value, _ | ⟨next, rest⟩⟩
      · rfl
      · rfl
      · simp only [List.map_cons, List.map_nil, Postfix.foldFrom, Except.mapError, List.length_cons, List.length_map]
        rfl
  | cons item rest ih =>
      cases item with
      | error error => rfl
      | ok token =>
          have pushed := relabelled_push labels blank blanks token stack
          rw [List.map_cons, Except.map, Postfix.foldFrom, Postfix.foldFrom]
          rcases Except.respelled_cases _ _ _ _ pushed with ⟨value, plain, found⟩ | ⟨error, other, plain, found, silent⟩
          · rw [plain, found]
            exact ih value
          · rw [plain, found]
            exact congrArg Except.error (located_blanked labels blank blanks token (token.relabelled labels) rfl error other silent)

end Token

theorem relabelled_tree (labels : Labels) (blank : EvalError → EvalError) (blanks : labels.Blank blank) (expression : String)
    (items : List (Except ParseError (Token T σ))) :
    Except.Respelled (Expr.relabelled labels) (Error.blanked blank)
      ((foldTree (Postfix.order expression (items.map (Except.map (Token.relabelled labels))))).mapError foldError)
      ((foldTree (Postfix.order expression items)).mapError foldError) := by
  have ordered := Order.relabelled_order labels expression Order.start items
  have folded := Token.relabelled_fold labels blank blanks
    ((Postfix.order expression items).map fun item => item.mapError Error.parse) []
  have parsed : ((Postfix.order expression items).map (Except.map (Token.relabelled labels))).map
      (fun item => item.mapError Error.parse) =
        ((Postfix.order expression items).map fun item => item.mapError Error.parse).map
          (Except.map (Token.relabelled labels)) := by
    rw [List.map_map, List.map_map]
    refine List.map_congr_left fun item _ => ?_
    cases item <;> rfl
  rw [foldTree, Postfix.fold, Postfix.order]
  change Except.Respelled _ _ ((Postfix.foldFrom treeBuilder []
    ((Order.orderFrom expression (Order.start.relabelled labels) _).map _)).mapError foldError) _
  rw [ordered]
  exact parsed ▸ folded

def Compiled.relabelled (labels : Labels) (others : List String) (compiled : Compiled T σ) : Compiled T σ :=
  { compiled with parameters := others, graph := compiled.graph.relabelled labels }

theorem finish_declares [Numeric T] (expression : String) (names : List String) (optimize : Bool) (e : Expr T σ) (host : σ) :
    ((Evaluator.finish expression names optimize e).run host).1.parameters = names := by
  cases optimize <;> rfl

theorem finish_uniform [Numeric T] (known : String → Prop) (expression : String) (names : List String) (optimize : Bool)
    (e : Expr T σ) (every : e.Every (Shape.Named known)) (host : σ) :
    ((Evaluator.finish expression names optimize e).run host).1.graph.Uniform (Shape.Named known) := by
  have written := Graph.of_expr_named known e every
  cases optimize with
  | false => exact written
  | true => exact Graph.optimized_uniform _ (Rewrite.keeps_named known) _ host written

theorem finish_relabelled [Numeric T] (labels : Labels) (known : String → Prop) (distinct : labels.Distinct known)
    (expression : String) (names others : List String) (optimize : Bool) (e : Expr T σ)
    (every : e.Every (Shape.Named known)) (host : σ) :
    (Evaluator.finish expression others optimize (e.relabelled labels)).run host =
      (((Evaluator.finish expression names optimize e).run host).1.relabelled labels others,
        ((Evaluator.finish expression names optimize e).run host).2) := by
  have written := Graph.relabelled_of_expr labels known distinct e every
  cases optimize with
  | false =>
      change ((⟨expression, others, Graph.ofExpr (e.relabelled labels), none⟩ : Compiled T σ), host) = _
      rw [written]
      rfl
  | true =>
      have shortened := Graph.relabelled_optimize labels known distinct _ host (Graph.of_expr_named known e every)
      rw [← written] at shortened
      unfold Evaluator.finish
      simp only [if_true, StateT.run_bind, shortened]
      rfl

theorem Compiled.relabelled_call [Numeric T] (labels : Labels) (inputs moved : List T) (moves : labels.Moves inputs moved)
    (compiled : Compiled T σ) (others : List String) (earlier : compiled.graph.cells.Earlier)
    (given : inputs.length = compiled.parameters.length) (also : moved.length = others.length) :
    (compiled.relabelled labels others).call moved = compiled.call inputs := by
  rw [call, if_pos (show moved.length = (compiled.relabelled labels others).parameters.length from also), call, if_pos given]
  exact compiled.graph.relabelled_run labels inputs moved moves earlier

end Formula
