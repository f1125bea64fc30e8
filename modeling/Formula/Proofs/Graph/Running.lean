import Formula.Evaluator
import Formula.Proofs.Graph.Meaning

set_option autoImplicit false

namespace Formula

variable {T σ α β : Type}

-- A run from any of these states gives this value, or fails where there is none, and ends in one of them.
def Run.Gives (states : σ → Prop) (action : Run σ α) (value : Option α) : Prop :=
  ∀ state, states state → (action.outcome state).toOption = value ∧ states (action.after state)

namespace Run

variable (states : σ → Prop)

theorem gives_return (value : α) : Gives states (return value : Run σ α) (some value) :=
  fun _ here => ⟨rfl, here⟩

theorem gives_throw (error : EvalError) : Gives states (throw error : Run σ α) none :=
  fun _ here => ⟨rfl, here⟩

theorem gives_of_except (outcome : Except EvalError α) : Gives states (ofExcept outcome) outcome.toOption :=
  fun _ here => ⟨rfl, here⟩

theorem outcome_bind (action : Run σ α) (next : α → Run σ β) (state : σ) :
    (action >>= next).outcome state =
      match action.outcome state with
      | .ok value => (next value).outcome (action.after state)
      | .error error => .error error := by
  unfold outcome after
  rw [ExceptT.run_bind, StateT.run_bind]
  generalize action.run.run state = done
  obtain ⟨result, later⟩ := done
  cases result <;> rfl

theorem after_bind (action : Run σ α) (next : α → Run σ β) (state : σ) :
    (action >>= next).after state =
      match action.outcome state with
      | .ok value => (next value).after (action.after state)
      | .error _ => action.after state := by
  unfold outcome after
  rw [ExceptT.run_bind, StateT.run_bind]
  generalize action.run.run state = done
  obtain ⟨result, later⟩ := done
  cases result <;> rfl

theorem read_cell (name : String) (get : σ → Option T) (tag : Nat) (state : σ) :
    (Member.read ⟨name, .cell get, tag⟩).outcome state =
        (match get state with
        | some value => .ok value
        | none => .error (.extension name "variable lock is poisoned")) ∧
      (Member.read ⟨name, .cell get, tag⟩).after state = state := by
  rw [Member.read, outcome_bind, after_bind]
  change Run.outcome _ state = _ ∧ Run.after _ state = _
  cases get state <;> exact ⟨rfl, rfl⟩

theorem gives_bind (action : Run σ α) (next : α → Run σ β) (value : Option α) (result : α → Option β)
    (first : Gives states action value) (second : ∀ a, Gives states (next a) (result a)) :
    Gives states (action >>= next) (value.bind result) := by
  intro state here
  obtain ⟨given, kept⟩ := first state here
  rw [outcome_bind, after_bind, ← given]
  cases action.outcome state with
  | error error => exact ⟨rfl, kept⟩
  | ok a => exact second a (action.after state) kept

theorem locate_run (span : Span) (action : Run σ T) (state : σ) :
    (Shape.locate span action).run.run state =
      ((action.outcome state).mapError fun error => error.locate span, action.after state) := by
  simp only [Shape.locate, tryCatch, tryCatchThe, MonadExceptOf.tryCatch, ExceptT.tryCatch, ExceptT.run_mk,
    StateT.run_bind]
  change (bind (StateT.run action state) fun done => _) =
    ((StateT.run action state).1.mapError _, (StateT.run action state).2)
  generalize StateT.run action state = done
  obtain ⟨result, later⟩ := done
  cases result <;> rfl

theorem locate_ok (span : Span) (action : Run σ α) (state : σ) (value : α) :
    (Shape.locate span action).outcome state = .ok value ↔ action.outcome state = .ok value := by
  rw [outcome, locate_run]
  cases action.outcome state <;> simp [Except.mapError]

theorem locate_after (span : Span) (action : Run σ α) (state : σ) :
    (Shape.locate span action).after state = action.after state := by
  rw [after, locate_run]

theorem locate_root (error : EvalError) (span : Span) : (error.locate span).root = error.root := by
  cases error <;> rfl

theorem gives_locate (span : Span) (action : Run σ T) (value : Option T) (given : Gives states action value) :
    Gives states (Shape.locate span action) value := by
  intro state here
  obtain ⟨same, kept⟩ := given state here
  rw [outcome, after, locate_run, ← same]
  refine ⟨?_, kept⟩
  cases action.outcome state <;> rfl

theorem gives_all (inputs : List T) (args : List Nat) (programs : Nat → Program T σ) (values : Nat → Option T)
    (given : ∀ arg ∈ args, Gives states (programs arg inputs) (values arg)) :
    Gives states (Shape.runAll inputs (args.map programs)) ((args.map values).mapM id) := by
  induction args with
  | nil => exact gives_return states []
  | cons arg rest ih =>
      rw [List.map_cons, List.map_cons, List.mapM_cons, Shape.runAll]
      refine gives_bind states _ _ _ _ (given arg (by simp)) fun value => ?_
      exact gives_bind states _ _ _ _ (ih fun arg member => given arg (by simp [member])) fun values =>
        gives_return states (value :: values)

end Run

variable [Numeric T]

theorem Compiled.call_ok (compiled : Compiled T σ) (inputs : List T) (state : σ) (value : T) :
    (compiled.call inputs).outcome state = .ok value ↔
      inputs.length = compiled.parameters.length ∧ (compiled.graph.run inputs).outcome state = .ok value := by
  unfold call
  by_cases declared : inputs.length = compiled.parameters.length
  · simp [declared]
  · simp [declared, Run.outcome, throw, throwThe, MonadExceptOf.throw, ExceptT.run, ExceptT.mk]

def Meaning.value (now : σ) (inputs : List T) : Meaning T σ T where
  constant value := value
  parameter index := inputs[index]?
  use borrowed args := ((borrowed.use args).outcome now).toOption
  unary op a := (Numeric.unary op a).toOption
  binary op a b := (Numeric.binary op a b).toOption
  convert conversion a := (conversion.apply a).toOption
  truthy := Numeric.isTruthy

section

variable (states : σ → Prop) (now : σ) (inputs : List T)

def Borrowed.Steady (borrowed : Borrowed T σ) : Prop :=
  ∀ args, Run.Gives states (borrowed.use args) ((borrowed.use args).outcome now).toOption

theorem shape_gives (shape : Shape T σ Nat) (programs : Nat → Program T σ) (values : Nat → Option T)
    (steady : ∀ borrowed, shape.borrowed? = some borrowed → borrowed.Steady states now)
    (given : ∀ child ∈ shape.children, Run.Gives states (programs child inputs) (values child)) :
    Run.Gives states ((shape.map programs).run inputs) ((Meaning.value now inputs).layer (shape.map values)) := by
  cases shape with
  | constant value name => exact Run.gives_return states value
  | parameter index =>
      have means : (Meaning.value now inputs).layer (.parameter index : Shape T σ (Option T)) = inputs[index]? := rfl
      rw [Shape.map, Shape.map, Shape.run, means]
      cases inputs[index]? with
      | none => exact Run.gives_throw states _
      | some value => exact Run.gives_return states value
  | member source => exact steady (.member source) rfl []
  | unary op operand span =>
      refine Run.gives_bind states _ _ _ _ (given operand (by simp [Shape.children])) fun a => ?_
      exact Run.gives_locate states span _ _ (Run.gives_of_except states _)
  | binary op left right span =>
      refine Run.gives_bind states _ _ _ _ (given left (by simp [Shape.children])) fun a => ?_
      refine Run.gives_bind states _ _ _ _ (given right (by simp [Shape.children])) fun b => ?_
      exact Run.gives_locate states span _ _ (Run.gives_of_except states _)
  | convert conversion operand span =>
      refine Run.gives_bind states _ _ _ _ (given operand (by simp [Shape.children])) fun a => ?_
      exact Run.gives_locate states span _ _ (Run.gives_of_except states _)
  | call routine args span =>
      refine Run.gives_bind states _ _ _ _ (Run.gives_all states inputs args programs values given) fun known => ?_
      exact Run.gives_locate states span _ _ (steady (.routine routine) rfl known)
  | conditional condition accepted rejected =>
      refine Run.gives_bind states _ _ _ _ (given condition (by simp [Shape.children])) fun a => ?_
      change Run.Gives states (if Numeric.isTruthy a = true then _ else _) (if Numeric.isTruthy a = true then _ else _)
      split
      · exact given accepted (by simp [Shape.children])
      · exact given rejected (by simp [Shape.children])

theorem graph_gives (graph : Graph T σ) (earlier : graph.cells.Earlier)
    (steady : ∀ borrowed, graph.cells.Borrows borrowed → borrowed.Steady states now) :
    Run.Gives states (graph.run inputs) (graph.fold (Meaning.value now inputs).layer none) := by
  apply Graph.fold_related (fun program value => Run.Gives states (program inputs) value) Shape.run _ _ _ graph earlier
  · exact Run.gives_throw states _
  · intro index shape programs values read given
    exact shape_gives states now inputs shape programs values
      (fun borrowed uses => steady borrowed ⟨index, shape, read, uses⟩) given

end

end Formula
