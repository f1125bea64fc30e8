import Formula.Proofs.Phrase.Admitted

set_option autoImplicit false

namespace Formula

variable {T σ : Type}

section

variable [Numeric T]

-- The errors that a program of a grammar starts from.
inductive Fault (grammar : Grammar T σ) : EvalError → Prop
  | unary (op : UnaryOperator) (a : T) (error : EvalError) (raised : Numeric.unary op a = .error error)
      (isArithmetic : error.IsArithmetic) : Fault grammar error
  | binary (op : BinaryOperator) (a b : T) (error : EvalError) (raised : Numeric.binary op a b = .error error)
      (isArithmetic : error.IsArithmetic) : Fault grammar error
  | truncate (a : T) (error : EvalError) (raised : Numeric.truncate a = .error error)
      (isArithmetic : error.IsArithmetic) : Fault grammar error
  | poisoned (name : String) (get : σ → Option T) (tag : Nat) (state : σ)
      (offered : grammar.Offers (.member ⟨name, .cell get, tag⟩)) (nothing : get state = none) :
      Fault grammar (.extension name "variable lock is poisoned")
  | body (routine : Routine T σ) (args : List T) (state : σ) (error : EvalError)
      (offered : grammar.Offers (.call routine)) (counted : args.length = routine.arity)
      (raised : (routine.body args).outcome state = .error error) : Fault grammar error

-- Negations that the optimizer brings in come with the subtraction, product or quotient that they replace.
theorem admitted_kept (grammar : Grammar T σ) (count : Nat) :
    Rewrite.Keeps fun shape : Shape T σ Unit => shape.Admitted grammar count := by
  refine Rewrite.keeps_negated _ (fun _ _ => trivial) fun op span place known here => ?_
  simp only [List.mem_cons, List.not_mem_nil, or_false] at known
  rcases known with rfl | rfl | rfl <;> exact here

end

namespace Run

variable {α β : Type} (faults : EvalError → Prop)

def Raises (action : Run σ α) : Prop :=
  ∀ state error, action.outcome state = .error error → ∃ fault, faults fault ∧ error.root = fault.root

theorem raises_return (value : α) : Raises faults (return value : Run σ α) :=
  fun _ _ failed => absurd failed (by simp [outcome])

theorem raises_of_except (result : Except EvalError α) (each : ∀ error, result = .error error → faults error) :
    Raises faults (ofExcept result : Run σ α) :=
  fun _ error failed => ⟨error, each error failed, rfl⟩

theorem raises_bind (action : Run σ α) (next : α → Run σ β) (first : Raises faults action)
    (later : ∀ state value, action.outcome state = .ok value → Raises faults (next value)) :
    Raises faults (action >>= next) := by
  intro state error failed
  rw [outcome_bind] at failed
  cases done : action.outcome state with
  | error raised =>
      obtain rfl : raised = error := by simpa [done] using failed
      exact first state raised done
  | ok value => exact later state value done _ error (by simpa [done] using failed)

theorem raises_locate (span : Span) (action : Run σ α) (raises : Raises faults action) :
    Raises faults (Shape.locate span action) := by
  intro state error failed
  rw [outcome, locate_run] at failed
  cases done : action.outcome state with
  | ok value => simp [done, Except.mapError] at failed
  | error raised =>
      obtain rfl : raised.locate span = error := by simpa [done, Except.mapError] using failed
      obtain ⟨fault, isFault, same⟩ := raises state raised done
      exact ⟨fault, isFault, (locate_root raised span).trans same⟩

theorem raises_all (inputs : List α) (programs : List (Program α σ)) (each : ∀ program ∈ programs, Raises faults (program inputs)) :
    Raises faults (Shape.runAll inputs programs) := by
  induction programs with
  | nil => exact raises_return faults []
  | cons program rest ih =>
      refine raises_bind faults _ _ (each program (by simp)) fun _ value _ => ?_
      exact raises_bind faults _ _ (ih fun other member => each other (by simp [member])) fun _ values _ =>
        raises_return faults (value :: values)

theorem all_length (inputs : List α) (programs : List (Program α σ)) (state : σ) (values : List α)
    (done : (Shape.runAll inputs programs).outcome state = .ok values) : values.length = programs.length := by
  induction programs generalizing state values with
  | nil =>
      obtain rfl := Except.ok.inj done
      rfl
  | cons program rest ih =>
      rw [Shape.runAll, outcome_bind] at done
      cases first : (program inputs).outcome state with
      | error error => simp [first] at done
      | ok value =>
          simp only [first, outcome_bind] at done
          cases later : (Shape.runAll inputs rest).outcome ((program inputs).after state) with
          | error error => simp [later] at done
          | ok others =>
              simp only [later] at done
              obtain rfl := Except.ok.inj done
              exact congrArg Nat.succ (ih _ others later)

end Run

section

variable [Numeric T] (grammar : Grammar T σ)

theorem member_raises (source : Member T σ) (offered : grammar.Offers (.member source)) :
    Run.Raises (Fault grammar) source.read := by
  obtain ⟨name, source, tag⟩ := source
  intro state error failed
  cases source with
  | property get => simp [Run.outcome, Member.read, ExceptT.lift, ExceptT.run, ExceptT.mk] at failed
  | cell get =>
      rw [(Run.read_cell name get tag state).1] at failed
      cases known : get state with
      | none =>
          rw [known] at failed
          obtain rfl := Except.error.inj failed
          exact ⟨_, .poisoned name get tag state offered known, rfl⟩
      | some value => exact absurd failed (by simp [known])

theorem routine_raises (routine : Routine T σ) (args : List T) (offered : grammar.Offers (.call routine))
    (counted : args.length = routine.arity) : Run.Raises (Fault grammar) (routine.call args) := by
  rw [Routine.call, if_pos counted]
  exact fun state error failed => ⟨error, .body routine args state error offered counted failed, rfl⟩

variable [Dependable T]

theorem convert_raises (conversion : Conversion) (a : T) :
    Run.Raises (Fault grammar) (Run.ofExcept (conversion.apply a) : Run σ T) := by
  apply Run.raises_of_except
  intro error raised
  cases conversion with
  | identity => exact absurd raised (by simp [Conversion.apply])
  | integral => exact .truncate a error raised (Dependable.truncate a error raised)

theorem shape_raises (count : Nat) (inputs : List T) (declared : inputs.length = count) (shape : Shape T σ Nat)
    (admitted : shape.outline.Admitted grammar count) (programs : Nat → Program T σ)
    (each : ∀ child ∈ shape.children, Run.Raises (Fault grammar) (programs child inputs)) :
    Run.Raises (Fault grammar) ((shape.map programs).run inputs) := by
  cases shape with
  | constant value name => exact Run.raises_return _ value
  | parameter index =>
      have present : inputs[index]? = some _ := List.getElem?_eq_getElem (declared ▸ admitted)
      rw [Shape.map, Shape.run, present]
      exact Run.raises_return _ _
  | member source => exact member_raises grammar source admitted
  | unary op operand span =>
      refine Run.raises_bind _ _ _ (each operand (by simp [Shape.children])) fun _ a _ => ?_
      refine Run.raises_locate _ span _ (Run.raises_of_except _ _ fun error raised => ?_)
      exact .unary op a error raised (Dependable.unary op a admitted error raised)
  | binary op left right span =>
      refine Run.raises_bind _ _ _ (each left (by simp [Shape.children])) fun _ a _ => ?_
      refine Run.raises_bind _ _ _ (each right (by simp [Shape.children])) fun _ b _ => ?_
      refine Run.raises_locate _ span _ (Run.raises_of_except _ _ fun error raised => ?_)
      exact .binary op a b error raised (Dependable.binary op a b admitted error raised)
  | convert conversion operand span =>
      refine Run.raises_bind _ _ _ (each operand (by simp [Shape.children])) fun _ a _ => ?_
      exact Run.raises_locate _ span _ (convert_raises grammar conversion a)
  | call routine args span =>
      have programsRaise : ∀ program ∈ args.map programs, Run.Raises (Fault grammar) (program inputs) := by
        simpa [Shape.children] using each
      refine Run.raises_bind _ _ _ (Run.raises_all _ inputs _ programsRaise) fun state values done => ?_
      have counted : values.length = routine.arity := by
        rw [Run.all_length inputs _ state values done, List.length_map]
        simpa using admitted.2
      exact Run.raises_locate _ span _ (routine_raises grammar routine values admitted.1 counted)
  | conditional condition accepted rejected =>
      refine Run.raises_bind _ _ _ (each condition (by simp [Shape.children])) fun _ a _ => ?_
      split
      · exact each accepted (by simp [Shape.children])
      · exact each rejected (by simp [Shape.children])

theorem graph_raises (count : Nat) (graph : Graph T σ)
    (uniform : graph.Uniform fun shape => shape.Admitted grammar count) (inputs : List T)
    (declared : inputs.length = count) : Run.Raises (Fault grammar) (graph.run inputs) := by
  rw [Graph.run, Graph.fold_top]
  have entry (index : Nat) (bound : index < graph.cells.size) : Run.Raises (Fault grammar)
      (graph.cells.worth Shape.run (fun _ => throw (.malformed "the expression is empty")) index inputs) := by
    apply Cells.entry_induction graph.cells uniform.earlier _ index bound
    intro index shape read each
    rw [Cells.worth_read _ _ graph.cells uniform.earlier index shape read]
    exact shape_raises grammar count inputs declared shape (uniform.every index shape read) _ each
  exact entry _ (Cells.top_bound graph.cells uniform.rooted)

end

namespace Evaluator

-- `x/y`
def quotient : Expr (Integer .signed) Unit :=
  .node (.binary .div (.node (.parameter 0)) (.node (.parameter 1)) ⟨1, 2⟩)

end Evaluator

end Formula
