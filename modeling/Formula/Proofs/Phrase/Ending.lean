import Formula.Proofs.Phrase.Order

set_option autoImplicit false

namespace Formula.Phrase

variable {T σ : Type}

theorem operator_accepted (expression : String) (state next : Order T σ) (token : Token T σ) (out : List (Token T σ))
    (accepted : Order.acceptOperator expression state token = .ok (out, next)) :
    ∃ waiting, Order.placed expression state token = .ok waiting ∧
      out = state.stack.takeWhile (Order.releases waiting) ∧
      next = { state with
        stack := waiting :: state.stack.dropWhile (Order.releases waiting)
        frames := Order.markContent state.frames
        previous := some waiting.role } := by
  cases placed : Order.placed expression state token with
  | error error => simp [accept_misplaced expression state token error placed] at accepted
  | ok waiting =>
      rw [accept_placed expression state token waiting placed, Except.ok.injEq, Prod.mk.injEq] at accepted
      exact ⟨waiting, rfl, accepted.1.symm, accepted.2.symm⟩

theorem separator_accepted (expression : String) (state next : Order T σ) (token : Token T σ) (out : List (Token T σ))
    (accepted : Order.acceptSeparator expression state token = .ok (out, next)) :
    state.frames.head?.any Frame.isCall = true ∧ out = state.stack.takeWhile Reading.notOpen ∧
      next = { state with
        stack := state.stack.dropWhile Reading.notOpen
        frames := Order.addSeparator state.frames
        previous := some .separator } := by
  have taken : ¬ ∃ error, Order.acceptSeparator expression state token = .error error := by simp [accepted]
  have refused := mt (separator_refused expression state token) taken
  simp only [not_or, Bool.not_eq_false] at refused
  obtain ⟨call, content, operand⟩ := refused
  cases checked : Order.checkOperand expression state token with
  | error error => exact absurd ⟨error, checked⟩ operand
  | ok _ =>
      rw [separator_taken expression state token call content checked, Except.ok.injEq, Prod.mk.injEq] at accepted
      exact ⟨call, accepted.1.symm, accepted.2.symm⟩

theorem close_accepted (expression : String) (state next : Order T σ) (token : Token T σ) (out : List (Token T σ))
    (accepted : Order.acceptClose expression state token = .ok (out, next)) :
    ∃ opening below completed rest, state.stack.dropWhile Reading.notOpen = opening :: below ∧
      Order.closeGroup expression token (state.frames.headD ⟨false, 0, false⟩) below = .ok (completed, rest) ∧
      out = state.stack.takeWhile Reading.notOpen ++ completed ∧
      next = { state with stack := rest, frames := state.frames.tail, previous := some .closeParen } := by
  have taken : ¬ ∃ error, Order.acceptClose expression state token = .error error := by simp [accepted]
  have refused := mt (close_refused expression state token) taken
  simp only [not_or] at refused
  obtain ⟨opened, operand⟩ := refused
  obtain ⟨opening, below, group⟩ := List.exists_cons_of_ne_nil opened
  cases checked : Order.checkOperand expression state token with
  | error error => exact absurd ⟨error, checked⟩ operand
  | ok _ =>
      rw [close_taken expression state token opening below checked group] at accepted
      cases closed : Order.closeGroup expression token (state.frames.headD ⟨false, 0, false⟩) below with
      | error error => exact absurd (closed ▸ accepted) (by simp [Except.map])
      | ok parts =>
          rw [closed, Except.map, Except.ok.injEq, Prod.mk.injEq] at accepted
          exact ⟨opening, below, parts.1, parts.2, group, closed, accepted.1.symm, accepted.2.symm⟩

theorem accepted_operator_length (expression : String) (state next : Order T σ) (token : Token T σ)
    (out : List (Token T σ)) (accepted : Order.acceptOperator expression state token = .ok (out, next)) :
    out.length + next.stack.length = state.stack.length + 1 := by
  obtain ⟨waiting, -, rfl, rfl⟩ := operator_accepted expression state next token out accepted
  have parts := congrArg List.length
    (List.takeWhile_append_dropWhile (p := Order.releases waiting) (l := state.stack))
  simp only [List.length_append] at parts
  simp only [List.length_cons]
  omega

theorem accepted_separator_length (expression : String) (state next : Order T σ) (token : Token T σ)
    (out : List (Token T σ)) (accepted : Order.acceptSeparator expression state token = .ok (out, next)) :
    out.length + next.stack.length = state.stack.length := by
  obtain ⟨-, rfl, rfl⟩ := separator_accepted expression state next token out accepted
  rw [← List.length_append, List.takeWhile_append_dropWhile]

theorem close_group_length (expression : String) (token : Token T σ) (frame : Frame)
    (stack completed rest : List (Token T σ))
    (closed : Order.closeGroup expression token frame stack = .ok (completed, rest)) :
    completed.length + rest.length = stack.length := by
  unfold Order.closeGroup at closed
  split at closed
  · split at closed <;> simp only [Except.ok.injEq, Prod.mk.injEq] at closed <;> obtain ⟨rfl, rfl⟩ := closed
    · rfl
    · simp [Nat.add_comm]
  · split at closed <;> simp only [Except.ok.injEq, Prod.mk.injEq, reduceCtorEq] at closed
    obtain ⟨rfl, rfl⟩ := closed
    simp

theorem accepted_close_length (expression : String) (state next : Order T σ) (token : Token T σ)
    (out : List (Token T σ)) (accepted : Order.acceptClose expression state token = .ok (out, next)) :
    out.length + next.stack.length + 1 = state.stack.length := by
  obtain ⟨opening, below, completed, rest, group, closed, rfl, rfl⟩ :=
    close_accepted expression state next token out accepted
  have whole := congrArg List.length (List.takeWhile_append_dropWhile (p := Reading.notOpen) (l := state.stack))
  have counted := close_group_length expression token _ below completed rest closed
  rw [group, List.length_append, List.length_cons] at whole
  simp only [List.length_append]
  omega

theorem accept_length (expression : String) (state next : Order T σ) (token : Token T σ) (out : List (Token T σ))
    (accepted : Order.accept expression state token = .ok (out, next)) :
    out.length + next.stack.length ≤ state.stack.length + 1 := by
  unfold Order.accept at accepted
  split at accepted
  case h_2 => exact absurd accepted (by simp)
  case h_5 => exact Nat.le_of_eq (accepted_operator_length expression state next token out accepted)
  case h_6 => exact Nat.le_of_eq (accepted_operator_length expression state next token out accepted)
  case h_7 =>
    have counted := accepted_close_length expression state next token out accepted
    omega
  case h_8 =>
    have counted := accepted_separator_length expression state next token out accepted
    omega
  all_goals
    simp only [Except.ok.injEq, Prod.mk.injEq] at accepted
    obtain ⟨rfl, rfl⟩ := accepted
    simp [Nat.add_comm]

theorem finish_stack (expression : String) (state : Order T σ) (tokens : List (Token T σ))
    (finished : Order.finish expression state = .ok tokens) : tokens = state.stack := by
  unfold Order.finish at finished
  split at finished
  · exact absurd finished (by simp)
  · split at finished
    · exact absurd finished (by simp)
    · split at finished
      · exact absurd finished (by simp)
      · exact (Except.ok.inj finished).symm

theorem order_ends (expression : String) (items : List (Except ParseError (Token T σ))) (state : Order T σ) :
    (Order.orderFrom expression state items).length ≤ state.stack.length + items.length + 1 ∧
      ∃ emitted : List (Token T σ), Order.orderFrom expression state items = emitted.map .ok ∨
        ∃ error, Order.orderFrom expression state items = emitted.map .ok ++ [.error error] := by
  induction items generalizing state with
  | nil =>
      rw [Order.orderFrom]
      cases finished : Order.finish expression state with
      | ok tokens =>
          obtain rfl := finish_stack expression state tokens finished
          exact ⟨by simp, _, .inl rfl⟩
      | error error => exact ⟨by simp, [], .inr ⟨error, rfl⟩⟩
  | cons item rest ih =>
      cases item with
      | error error => exact ⟨by simp [Order.orderFrom], [], .inr ⟨error, rfl⟩⟩
      | ok token =>
          rw [Order.orderFrom]
          cases accepted : Order.accept expression state token with
          | error error => exact ⟨by simp, [], .inr ⟨error, rfl⟩⟩
          | ok step =>
              obtain ⟨out, next⟩ := step
              obtain ⟨bound, emitted, shape⟩ := ih next
              have counted := accept_length expression state next token out accepted
              refine ⟨?_, out ++ emitted, ?_⟩
              · simp only [List.length_append, List.length_map, List.length_cons]
                omega
              · simp only [List.map_append, List.append_assoc]
                rcases shape with clean | ⟨error, broken⟩
                · exact .inl (by rw [clean])
                · exact .inr ⟨error, by rw [broken]⟩

end Formula.Phrase
