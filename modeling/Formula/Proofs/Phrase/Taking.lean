import Formula.Proofs.Phrase.Order
import Mathlib.Data.List.DropRight

set_option autoImplicit false

namespace Formula

variable {T σ : Type}

def Role.starts : Role → Bool
  | .operand | .function | .openParen => true
  | _ => false

namespace Phrase

variable {expression : String}

inductive Takes (expression : String) : Order T σ → List (Token T σ) → List (Token T σ) → Order T σ → Prop
  | nil (state : Order T σ) : Takes expression state [] [] state
  | cons (state middle next : Order T σ) (token : Token T σ) (rest now later : List (Token T σ))
      (stands : token.role.starts = true → state.expectsOperand = true)
      (accepted : Order.accept expression state token = .ok (now, middle))
      (onward : Takes expression middle rest later next) :
      Takes expression state (token :: rest) (now ++ later) next

theorem Takes.one (state next : Order T σ) (token : Token T σ) (out : List (Token T σ))
    (stands : token.role.starts = true → state.expectsOperand = true)
    (accepted : Order.accept expression state token = .ok (out, next)) : Takes expression state [token] out next := by
  have step := Takes.cons state next next token [] out [] stands accepted (.nil next)
  rwa [List.append_nil] at step

theorem Takes.append (state middle next : Order T σ) (first second now later : List (Token T σ))
    (taken : Takes expression state first now middle) (onward : Takes expression middle second later next) :
    Takes expression state (first ++ second) (now ++ later) next := by
  induction taken with
  | nil => exact onward
  | cons state inner middle token rest out more stands accepted _ ih =>
      rw [List.append_assoc]
      exact .cons state inner next token (rest ++ second) out (more ++ later) stands accepted (ih onward)

theorem Takes.order (state next : Order T σ) (tokens out : List (Token T σ))
    (taken : Takes expression state tokens out next) (items : List (Except ParseError (Token T σ))) :
    Order.orderFrom expression state (tokens.map .ok ++ items) =
      out.map .ok ++ Order.orderFrom expression next items := by
  induction taken with
  | nil => rfl
  | cons state middle next token rest now later _ accepted _ ih =>
      rw [List.map_cons, List.cons_append, Order.orderFrom]
      simp only [accepted, ih, List.map_append, List.append_assoc]

-- What a phrase leaves behind: an operand is complete, and below its operators the stack is as it was.
structure Past (state next : Order T σ) : Prop where
  complete : next.expectsOperand = false
  idle : next.pending = none
  frames : next.frames = Order.markContent state.frames
  around : next.stack.dropWhile Reading.notOpen = state.stack.dropWhile Reading.notOpen

theorem complete_previous (state : Order T σ) (complete : state.expectsOperand = false) :
    state.previous = some .operand ∨ state.previous = some .closeParen := by
  unfold Order.expectsOperand at complete
  split at complete <;> simp_all

theorem check_complete (state : Order T σ) (token : Token T σ) (complete : state.expectsOperand = false) :
    Order.checkOperand expression state token = .ok () := by
  rcases complete_previous state complete with previous | previous <;> simp [Order.checkOperand, previous]

theorem mark_again (frames : List Frame) :
    Order.markContent (Order.markContent frames) = Order.markContent frames := by
  cases frames <;> rfl

theorem released_around (waiting : Token T σ) (stack : List (Token T σ)) :
    (stack.dropWhile (Order.releases waiting)).dropWhile Reading.notOpen = stack.dropWhile Reading.notOpen := by
  induction stack with
  | nil => rfl
  | cons token rest ih =>
      by_cases released : Order.releases waiting token = true
      · have operator := (Bool.and_eq_true_iff.mp released).1
        rw [List.dropWhile_cons_of_pos released, ih, List.dropWhile_cons_of_pos (operator_not_opening token operator)]
      · rw [List.dropWhile_cons_of_neg released]

theorem placed_lone (state : Order T σ) (token : Token T σ) (expects : state.expectsOperand = true)
    (prefixed : token.lone.form.isPrefix = true) : Order.placed expression state token = .ok token.lone := by
  unfold Token.lone at prefixed ⊢
  unfold Order.placed
  rw [if_pos expects]
  by_cases already : token.form.isPrefix = true
  · simp [already]
  · cases alone : token.alone with
    | none => simp [already, alone] at prefixed
    | some form => simp [already]

theorem accept_of_operator (state : Order T σ) (token : Token T σ) (idle : state.pending = none)
    (operator : token.role.isOperator = true) :
    Order.accept expression state token = Order.acceptOperator expression state token := by
  rcases operator_role token operator with role | role <;> simp [Order.accept, idle, role]

theorem operator_taken (state : Order T σ) (token waiting : Token T σ) (idle : state.pending = none)
    (operator : token.role.isOperator = true) (placed : Order.placed expression state token = .ok waiting)
    (role : waiting.role.isOperator = true) :
    ∃ out next, Takes expression state [token] out next ∧ next.expectsOperand = true ∧ next.pending = none ∧
      next.frames = Order.markContent state.frames ∧
      next.stack.dropWhile Reading.notOpen = state.stack.dropWhile Reading.notOpen := by
  have accepted := accept_placed expression state token waiting placed
  rw [← accept_of_operator state token idle operator] at accepted
  have starts : token.role.starts = false := by
    rcases operator_role token operator with role | role <;> rw [role] <;> rfl
  refine ⟨_, _, .one state _ token _ (by simp [starts]) accepted, ?_, idle, rfl, ?_⟩
  · rcases operator_role waiting role with kind | kind <;> simp [Order.expectsOperand, kind]
  · rw [List.dropWhile_cons_of_pos (operator_not_opening waiting role)]
    exact released_around waiting state.stack

theorem accept_close (state : Order T σ) (token : Token T σ) (idle : state.pending = none)
    (closing : token.role = .closeParen) :
    Order.accept expression state token = Order.acceptClose expression state token := by
  simp [Order.accept, idle, closing]

theorem accept_comma (state : Order T σ) (token : Token T σ) (idle : state.pending = none)
    (separator : token.role = .separator) :
    Order.accept expression state token = Order.acceptSeparator expression state token := by
  simp [Order.accept, idle, separator]

theorem opening_taken (expression : String) (state : Order T σ) (name opening : Token T σ)
    (expects : state.expectsOperand = true)
    (idle : state.pending = none) (function : name.role = .function) (parenthesis : opening.role = .openParen) :
    Takes expression state [name, opening] []
      ⟨opening :: name :: state.stack, ⟨true, 0, true⟩ :: Order.markContent state.frames, some .openParen, none⟩ := by
  have named : Takes expression state [name] []
      ⟨name :: state.stack, Order.markContent state.frames, some .function, some name.span⟩ :=
    .one _ _ name [] (fun _ => expects) (by simp [Order.accept, idle, function])
  have opened : Takes expression ⟨name :: state.stack, Order.markContent state.frames, some .function, some name.span⟩
      [opening] []
      ⟨opening :: name :: state.stack, ⟨true, 0, true⟩ :: Order.markContent state.frames, some .openParen, none⟩ :=
    .one _ _ opening [] (fun _ => rfl) (by simp [Order.accept, parenthesis, mark_again])
  exact .append _ _ _ [name] [opening] [] [] named opened

theorem closing_taken (state : Order T σ) (token opening : Token T σ) (below : List (Token T σ)) (frame : Frame)
    (frames : List Frame) (completed rest : List (Token T σ)) (complete : state.expectsOperand = false)
    (idle : state.pending = none) (closing : token.role = .closeParen)
    (around : state.stack.dropWhile Reading.notOpen = opening :: below) (framed : state.frames = frame :: frames)
    (closed : Order.closeGroup expression token frame below = .ok (completed, rest)) :
    ∃ out, Takes expression state [token] out ⟨rest, frames, some .closeParen, none⟩ := by
  have taken := close_taken expression state token opening below (check_complete state token complete) around
  rw [framed, List.headD_cons, closed, ← accept_close state token idle closing] at taken
  rw [Except.map, List.tail_cons, idle] at taken
  exact ⟨_, .one state _ token _ (by simp [closing, Role.starts]) taken⟩

mutual
theorem phrase_taken (p : Phrase T σ) (formed : p.Formed) (state : Order T σ) (expects : state.expectsOperand = true)
    (idle : state.pending = none) : ∃ out next, Takes expression state p.tokens out next ∧ Past state next := by
  cases p with
  | operand token =>
      have role : token.role = .operand := formed
      have accepted : Order.accept expression state token = .ok ([token],
          { state with frames := Order.markContent state.frames, previous := some .operand }) := by
        simp [Order.accept, idle, role]
      exact ⟨[token], _, .one state _ token _ (fun _ => expects) accepted, rfl, idle, rfl, rfl⟩
  | group opening inner closing =>
      obtain ⟨openRole, innerFormed, closeRole⟩ := formed
      have opened : Takes expression state [opening] []
          ⟨opening :: state.stack, ⟨false, 0, true⟩ :: Order.markContent state.frames, some .openParen, none⟩ :=
        .one _ _ opening [] (fun _ => expects) (by simp [Order.accept, idle, openRole])
      obtain ⟨out, middle, inside, past⟩ := phrase_taken inner innerFormed
        ⟨opening :: state.stack, ⟨false, 0, true⟩ :: Order.markContent state.frames, some .openParen, none⟩ rfl rfl
      have around := past.around
      rw [List.dropWhile_cons_of_neg (by simp [not_open_closed opening openRole])] at around
      obtain ⟨last, closed⟩ := closing_taken middle closing opening state.stack ⟨false, 0, false⟩
        (Order.markContent state.frames) [] state.stack past.complete past.idle closeRole around past.frames rfl
      refine ⟨_, _, .append _ _ _ [opening] (inner.tokens ++ [closing]) _ _ opened
        (.append _ _ _ inner.tokens [closing] _ _ inside closed), rfl, rfl, rfl, rfl⟩
  | emptyCall name opening closing =>
      obtain ⟨function, openRole, closeRole⟩ := formed
      have opened := opening_taken expression state name opening expects idle function openRole
      have closed : Takes expression
          ⟨opening :: name :: state.stack, ⟨true, 0, true⟩ :: Order.markContent state.frames, some .openParen, none⟩
          [closing] [Reading.counted name 0]
          ⟨state.stack, Order.markContent state.frames, some .closeParen, none⟩ := by
        have bracket := not_open_closed opening openRole
        apply Takes.one _ _ closing _ (by simp [closeRole, Role.starts])
        rw [accept_close _ closing rfl closeRole,
          close_taken expression _ closing opening (name :: state.stack) rfl (by simp [bracket])]
        simp [Order.closeGroup, Except.map, bracket, Reading.counted]
      exact ⟨_, _, .append _ _ _ [name, opening] [closing] _ _ opened closed, rfl, rfl, rfl, rfl⟩
  | call name opening args closing =>
      obtain ⟨function, openRole, argsFormed, closeRole⟩ := formed
      have opened := opening_taken expression state name opening expects idle function openRole
      have bracket := not_open_closed opening openRole
      obtain ⟨out, middle, count, inside, complete, calm, around, framed⟩ :=
        arguments_taken args argsFormed
          ⟨opening :: name :: state.stack, ⟨true, 0, true⟩ :: Order.markContent state.frames, some .openParen, none⟩
          opening (name :: state.stack) ⟨true, 0, true⟩ (Order.markContent state.frames) rfl rfl
          (by simp [bracket]) rfl rfl
      obtain ⟨last, closed⟩ := closing_taken middle closing opening (name :: state.stack) ⟨true, count, false⟩
        (Order.markContent state.frames) [Reading.counted name (count + 1)] state.stack complete calm closeRole around
        framed rfl
      exact ⟨_, _, .append _ _ _ [name, opening] (argumentTokens args ++ [closing]) _ _ opened
        (.append _ _ _ (argumentTokens args) [closing] _ _ inside closed), rfl, rfl, rfl, rfl⟩
  | before operator inner =>
      obtain ⟨role, prefixed, innerFormed⟩ := formed
      obtain ⟨now, middle, first, waits, calm, framed, around⟩ := operator_taken state operator operator.lone idle role
        (placed_lone state operator expects prefixed) (Form.prefix_operator _ prefixed)
      obtain ⟨later, next, onward, past⟩ := phrase_taken inner innerFormed middle waits calm
      exact ⟨_, next, .append _ _ _ [operator] inner.tokens _ _ first onward, past.complete, past.idle,
        by rw [past.frames, framed, mark_again], past.around.trans around⟩
  | between left operator right =>
      obtain ⟨role, binds, leftFormed, rightFormed⟩ := formed
      obtain ⟨now, before, first, leftPast⟩ := phrase_taken left leftFormed state expects idle
      have placed : Order.placed expression before operator = .ok operator := by
        have between := placed_between expression before operator leftPast.complete
        rwa [if_neg (by simp [binds])] at between
      obtain ⟨own, middle, second, waits, calm, framed, around⟩ :=
        operator_taken before operator operator leftPast.idle role placed role
      obtain ⟨later, next, third, past⟩ := phrase_taken right rightFormed middle waits calm
      exact ⟨_, next, .append _ _ _ left.tokens (operator :: right.tokens) _ _ first
          (.append _ _ _ [operator] right.tokens _ _ second third), past.complete, past.idle,
        by rw [past.frames, framed, leftPast.frames, mark_again, mark_again],
        (past.around.trans around).trans leftPast.around⟩
theorem arguments_taken (args : Arguments T σ) (formed : ArgumentsFormed args) (state : Order T σ) (opening : Token T σ)
    (below : List (Token T σ)) (frame : Frame) (frames : List Frame) (expects : state.expectsOperand = true)
    (idle : state.pending = none) (around : state.stack.dropWhile Reading.notOpen = opening :: below)
    (framed : state.frames = frame :: frames) (isCall : frame.isCall = true) :
    ∃ out next count, Takes expression state (argumentTokens args) out next ∧ next.expectsOperand = false ∧
      next.pending = none ∧ next.stack.dropWhile Reading.notOpen = opening :: below ∧
      next.frames = ⟨true, count, false⟩ :: frames := by
  cases args with
  | one arg =>
      obtain ⟨out, next, taken, past⟩ := phrase_taken arg formed state expects idle
      refine ⟨out, next, frame.separators, taken, past.complete, past.idle, past.around.trans around, ?_⟩
      rw [past.frames, framed, Order.markContent, isCall]
  | more init comma arg =>
      obtain ⟨initFormed, separator, argFormed⟩ := formed
      obtain ⟨now, middle, count, first, complete, calm, kept, counted⟩ :=
        arguments_taken init initFormed state opening below frame frames expects idle around framed isCall
      have content : middle.previous ≠ some .openParen := by
        rcases complete_previous middle complete with previous | previous <;> simp [previous]
      have accepted := separator_taken expression middle comma (by simp [counted]) content
        (check_complete middle comma complete)
      rw [← accept_comma middle comma calm separator] at accepted
      have second := Takes.one middle _ comma _ (by simp [separator, Role.starts]) accepted
      obtain ⟨later, next, third, past⟩ := phrase_taken arg argFormed
        ⟨middle.stack.dropWhile Reading.notOpen, Order.addSeparator middle.frames, some .separator, middle.pending⟩
        rfl calm
      refine ⟨_, next, count + 1, .append _ _ _ (argumentTokens init) (comma :: arg.tokens) _ _ first
        (.append _ _ _ [comma] arg.tokens _ _ second third), past.complete, past.idle, ?_, ?_⟩
      · rw [past.around, List.dropWhile_idempotent, kept]
      · rw [past.frames, counted]
        rfl
end

theorem sentence_taken (expression : String) (p : Phrase T σ) (formed : p.Formed) :
    ∃ out next, Takes expression Order.start p.tokens out next ∧ Past Order.start next ∧
      Order.finish expression next = .ok next.stack := by
  obtain ⟨out, next, taken, past⟩ := phrase_taken p formed Order.start rfl rfl
  refine ⟨out, next, taken, past, ?_⟩
  have opened : next.stack.find? Order.isOpen = none := by
    have none := List.dropWhile_eq_nil_iff.mp past.around
    simpa [List.find?_eq_none, Reading.notOpen] using none
  unfold Order.finish
  rcases complete_previous next past.complete with previous | previous <;>
    simp [past.idle, previous, opened, Role.isOperator]

end Phrase

end Formula
