import Formula.Postfix.Order

set_option autoImplicit false

namespace Formula

variable {T σ : Type}

-- A property of tokens that neither a lone form nor a number of arguments can change.
structure Token.Lasting (holds : Token T σ → Prop) : Prop where
  alone : ∀ (token : Token T σ) (form : Form T σ), holds token → token.alone = some form → holds { token with form := form }
  counted : ∀ (token : Token T σ) (count : Nat), holds token → holds { token with argc := some count }

namespace Order

-- Whatever waits has the property, and a name that waits for its parenthesis stands where a token has it.
structure Keeps (holds : Token T σ → Prop) (state : Order T σ) : Prop where
  stack : ∀ token ∈ state.stack, holds token
  pending : ∀ span, state.pending = some span → ∃ token, holds token ∧ token.span = span

variable (expression : String) (holds : Token T σ → Prop)

def Blames (error : ParseError) : Prop :=
  ∃ token kind details, holds token ∧ error = errorAt expression kind token.span details

def unfinished : ParseError :=
  ⟨.missingOperand, expression, Text.width expression.toList, none, "expected an operand at end of input"⟩

def Settles {α : Type} (good : α → Prop) : Except ParseError α → Prop
  | .ok value => good value
  | .error error => Blames expression holds error

def Kept (step : List (Token T σ) × Order T σ) : Prop := (∀ token ∈ step.1, holds token) ∧ step.2.Keeps holds

theorem settles_bind {α β : Type} (good : α → Prop) (better : β → Prop) (first : Except ParseError α)
    (next : α → Except ParseError β) (settled : Settles expression holds good first)
    (each : ∀ value, good value → Settles expression holds better (next value)) :
    Settles expression holds better (first >>= next) := by
  cases first with
  | ok value => exact each value settled
  | error error => exact settled

theorem start_keeps : (start : Order T σ).Keeps holds := ⟨by simp [start], by simp [start]⟩

variable (lasting : Token.Lasting holds) (state : Order T σ) (kept : state.Keeps holds) (token : Token T σ)
  (own : holds token)

section

include own

theorem blames_own (kind : ParseErrorKind) (details : String) :
    Blames expression holds (errorAt expression kind token.span details) :=
  ⟨token, kind, details, own, rfl⟩

include lasting in
theorem placed_settles : Settles expression holds holds (placed expression state token) := by
  rw [placed]
  by_cases operand : state.expectsOperand = true
  · rw [if_pos operand]
    by_cases leading : token.form.isPrefix = true
    · rw [if_pos leading]
      exact own
    · rw [if_neg leading]
      cases lone : token.alone with
      | some form =>
          have still := lasting.alone token form own lone
          rw [lone] at still
          exact still
      | none => exact blames_own expression holds token own _ _
  · rw [if_neg operand]
    by_cases leading : token.form.isPrefix = true
    · rw [if_pos leading]
      exact blames_own expression holds token own _ _
    · rw [if_neg leading]
      exact own

theorem check_settles : Settles expression holds (fun _ => True) (checkOperand expression state token) := by
  rw [checkOperand]
  cases state.previous with
  | none => trivial
  | some role =>
      cases role with
      | leftOperator => exact blames_own expression holds token own _ _
      | rightOperator => exact blames_own expression holds token own _ _
      | separator => exact blames_own expression holds token own _ _
      | _ => trivial

include lasting in
theorem group_settles (frame : Frame) (stack : List (Token T σ)) (waiting : ∀ other ∈ stack, holds other) :
    Settles expression holds (fun closed => (∀ other ∈ closed.1, holds other) ∧ ∀ other ∈ closed.2, holds other)
      (closeGroup expression token frame stack) := by
  unfold closeGroup
  by_cases call : frame.isCall = true
  · rw [if_pos call]
    cases stack with
    | nil => exact ⟨waiting, waiting⟩
    | cons function rest =>
        obtain ⟨top, below⟩ := List.forall_mem_cons.mp waiting
        exact ⟨List.forall_mem_singleton.mpr (lasting.counted function _ top), below⟩
  · rw [if_neg call]
    by_cases blank : frame.isBlank = true
    · rw [if_pos blank]
      exact blames_own expression holds token own _ _
    · rw [if_neg blank]
      exact ⟨by simp, waiting⟩

end

include kept

theorem released_keep (free : Token T σ → Bool) :
    (∀ waiting ∈ state.stack.takeWhile free, holds waiting) ∧ ∀ waiting ∈ state.stack.dropWhile free, holds waiting :=
  ⟨fun waiting member => kept.stack waiting ((List.takeWhile_prefix free).mem member),
    fun waiting member => kept.stack waiting ((List.dropWhile_suffix free).mem member)⟩

theorem finish_settles :
    Settles expression holds (fun tokens => ∀ token ∈ tokens, holds token) (finish expression state) ∨
      finish expression state = .error (unfinished expression) := by
  rw [finish]
  cases waiting : state.pending with
  | some span =>
      obtain ⟨name, known, rfl⟩ := kept.pending span waiting
      exact .inl (blames_own expression holds name known _ _)
  | none =>
      by_cases operator : state.previous.any Role.isOperator = true
      · simp [operator, unfinished]
      · simp only [operator, Bool.false_eq_true, if_false]
        cases opened : state.stack.find? isOpen with
        | none => exact .inl kept.stack
        | some opening =>
            have member := kept.stack opening (List.mem_of_find?_eq_some opened)
            exact .inl (blames_own expression holds opening member _ _)

include own

theorem separator_settles (idle : state.pending = none) :
    Settles expression holds (Kept holds) (acceptSeparator expression state token) := by
  rw [acceptSeparator]
  by_cases inside : (!state.frames.head?.any Frame.isCall) = true
  · rw [if_pos inside]
    exact blames_own expression holds token own _ _
  · rw [if_neg inside]
    by_cases opened : state.previous = some .openParen
    · rw [if_pos opened]
      exact blames_own expression holds token own _ _
    · rw [if_neg opened]
      refine settles_bind expression holds _ _ _ _ (check_settles expression holds state token own) fun _ _ => ?_
      obtain ⟨above, below⟩ := released_keep holds state kept (!isOpen ·)
      exact ⟨above, below, by simp [idle]⟩

include lasting

theorem operator_settles (idle : state.pending = none) :
    Settles expression holds (Kept holds) (acceptOperator expression state token) := by
  have settled := placed_settles expression holds lasting state token own
  refine settles_bind expression holds _ _ _ _ settled fun waiting still => ?_
  obtain ⟨above, below⟩ := released_keep holds state kept (releases waiting)
  exact ⟨above, List.forall_mem_cons.mpr ⟨still, below⟩, by simp [idle]⟩

theorem close_settles (idle : state.pending = none) :
    Settles expression holds (Kept holds) (acceptClose expression state token) := by
  obtain ⟨above, below⟩ := released_keep holds state kept (!isOpen ·)
  rw [acceptClose]
  refine settles_bind expression holds _ _ _ _ (check_settles expression holds state token own) fun _ _ => ?_
  cases waiting : state.stack.dropWhile (!isOpen ·) with
  | nil => exact blames_own expression holds token own _ _
  | cons opening rest =>
      rw [waiting] at below
      have group := group_settles expression holds lasting token own (state.frames.headD ⟨false, 0, false⟩) rest
        (List.forall_mem_cons.mp below).2
      refine settles_bind expression holds _ _ _ _ group fun (completed, others) ⟨done, left⟩ => ?_
      exact ⟨fun other member => (List.mem_append.mp member).elim (above other) (done other), left, by simp [idle]⟩

theorem accept_settles : Settles expression holds (Kept holds) (accept expression state token) := by
  have pushed : ∀ other ∈ token :: state.stack, holds other := List.forall_mem_cons.mpr ⟨own, kept.stack⟩
  rw [accept]
  cases waiting : state.pending with
  | some span =>
      obtain ⟨name, known, rfl⟩ := kept.pending span waiting
      cases token.role with
      | openParen => exact ⟨by simp, pushed, by simp⟩
      | _ => exact blames_own expression holds name known _ _
  | none =>
      cases token.role with
      | openParen => exact ⟨by simp, pushed, by simp⟩
      | operand => exact ⟨List.forall_mem_singleton.mpr own, kept.stack, by simp⟩
      | function => exact ⟨by simp, pushed, fun span same => ⟨token, own, Option.some.inj same⟩⟩
      | leftOperator => exact operator_settles expression holds lasting state kept token own waiting
      | rightOperator => exact operator_settles expression holds lasting state kept token own waiting
      | closeParen => exact close_settles expression holds lasting state kept token own waiting
      | separator => exact separator_settles expression holds state kept token own waiting

omit own in
theorem order_settles (items : List (Except ParseError (Token T σ))) (each : ∀ token, .ok token ∈ items → holds token) :
    (∀ token, .ok token ∈ orderFrom expression state items → holds token) ∧
      ∀ error, .error error ∈ orderFrom expression state items →
        .error error ∈ items ∨ Blames expression holds error ∨ error = unfinished expression := by
  induction items generalizing state with
  | nil =>
      rw [orderFrom]
      have settled := finish_settles expression holds state kept
      cases done : finish expression state with
      | ok tokens =>
          rw [done] at settled
          exact ⟨by simpa [Settles] using settled, by simp⟩
      | error error =>
          rw [done] at settled
          refine ⟨by simp, fun other member => .inr ?_⟩
          obtain rfl : other = error := by simpa using member
          exact settled.imp id Except.error.inj
  | cons item rest ih =>
      cases item with
      | error error => exact ⟨by simp [orderFrom], fun other member => .inl (by simpa [orderFrom] using Or.inl member)⟩
      | ok token =>
          have settled := accept_settles expression holds lasting state kept token (each token List.mem_cons_self)
          have later (other : Token T σ) (member : .ok other ∈ rest) := each other (List.mem_cons_of_mem _ member)
          rw [orderFrom]
          cases accepted : accept expression state token with
          | error error =>
              rw [accepted] at settled
              refine ⟨by simp, fun other member => .inr (.inl ?_)⟩
              obtain rfl : other = error := by simpa using member
              exact settled
          | ok step =>
              rw [accepted] at settled
              obtain ⟨released, waiting⟩ := settled
              obtain ⟨tokens, errors⟩ := ih step.2 waiting later
              refine ⟨fun other member => ?_, fun error member => ?_⟩
              · rcases List.mem_append.mp member with out | after
                · exact released other (by simpa using out)
                · exact tokens other after
              · have after : .error error ∈ orderFrom expression step.2 rest := by simpa using member
                exact (errors error after).imp (List.mem_cons_of_mem _) id

end Order

end Formula
