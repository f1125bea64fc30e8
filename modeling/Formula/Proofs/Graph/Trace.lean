import Formula.Proofs.Graph.Parallel

set_option autoImplicit false

namespace Formula

variable {T σ ι κ : Type}

abbrev Log (T σ : Type) := List (Routine T σ × List T)

def Routine.logged (routine : Routine T σ) : Routine T (σ × Log T σ) where
  kind := routine.kind
  name := routine.name
  arity := routine.arity
  tag := routine.tag
  body args := fun (state, log) =>
    ((routine.body args).outcome state,
      ((routine.body args).after state, if routine.isFoldable then log else log ++ [(routine, args)]))

def Member.logged (m : Member T σ) : Member T (σ × Log T σ) where
  name := m.name
  tag := m.tag
  source :=
    match m.source with
    | .property get => .property fun (state, log) => ((get.run state).1, ((get.run state).2, log))
    | .cell get => .cell fun (state, _) => get state

def Borrowed.logged : Borrowed T σ → Borrowed T (σ × Log T σ)
  | .routine function => .routine function.logged
  | .member source => .member source.logged

def Shape.logged : Shape T σ ι → Shape T (σ × Log T σ) ι
  | .constant value name => .constant value name
  | .parameter index => .parameter index
  | .member source => .member source.logged
  | .unary op operand span => .unary op operand span
  | .binary op left right span => .binary op left right span
  | .convert conversion operand span => .convert conversion operand span
  | .call routine args span => .call routine.logged args span
  | .conditional condition accepted rejected => .conditional condition accepted rejected

theorem Shape.logged_map (f : ι → κ) (shape : Shape T σ ι) : (shape.map f).logged = shape.logged.map f := by
  cases shape <;> rfl

theorem Shape.logged_children (shape : Shape T σ ι) : shape.logged.children = shape.children := by
  cases shape <;> rfl

theorem Shape.logged_borrowed (shape : Shape T σ ι) : shape.logged.borrowed? = shape.borrowed?.map Borrowed.logged := by
  cases shape <;> rfl

theorem Shape.logged_parallel (shape : Shape T σ ι) :
    shape.Parallel (fun plain traced => traced = plain.logged) Eq shape.logged := by
  cases shape with
  | constant value name => exact .constant value name name
  | parameter index => exact .parameter index
  | member source => exact .member source source.logged rfl
  | unary op operand span => exact .unary op operand span span rfl
  | binary op left right span => exact .binary op left right span span rfl
  | convert conversion operand span => exact .convert conversion operand span span rfl
  | call routine args span => exact .call routine routine.logged args span span rfl rfl
  | conditional condition accepted rejected => exact .conditional condition accepted rejected

section

variable [Numeric T]

-- The run of a node by a host that keeps a log.
def Shape.traced (shape : Shape T σ (Program T (σ × Log T σ))) : Program T (σ × Log T σ) := shape.logged.run

def Graph.traced (graph : Graph T σ) : Program T (σ × Log T σ) :=
  graph.fold Shape.traced fun _ => throw (.malformed "the expression is empty")

def Graph.invocations (graph : Graph T σ) (inputs : List T) (now : σ) : Log T σ :=
  ((graph.traced inputs).after (now, [])).2

end

namespace Run

variable {α L : Type}

-- But for the log, the run is this one.
def Erases (traced : Run (σ × L) α) (plain : Run σ α) : Prop :=
  ∀ state log, traced.outcome (state, log) = plain.outcome state ∧ (traced.after (state, log)).1 = plain.after state

theorem erases_congruence :
    Congruence (fun α (plain : Run σ α) (traced : Run (σ × L) α) => Erases traced plain) Eq where
  result _ _ _ _ := ⟨rfl, rfl⟩
  bind _ _ plain traced plainNext next first later := by
    intro state log
    obtain ⟨same, kept⟩ := first state log
    rw [outcome_bind, after_bind, outcome_bind, after_bind, same]
    cases plain.outcome state with
    | error error => exact ⟨rfl, kept⟩
    | ok value =>
        generalize traced.after (state, log) = there at kept ⊢
        obtain ⟨reached, noted⟩ := there
        obtain rfl : reached = plain.after state := kept
        exact later value _ noted
  locate _ span _ plain traced located erases := by
    intro state log
    obtain ⟨same, kept⟩ := erases state log
    simp only [outcome, after, locate_run, ← located]
    exact ⟨congrArg _ same, kept⟩

theorem erases_use (borrowed : Borrowed T σ) (args : List T) :
    Erases (borrowed.logged.use args) (borrowed.use args) := by
  cases borrowed with
  | routine routine =>
      simp only [Borrowed.logged, Borrowed.use, Routine.call]
      by_cases counted : args.length = routine.arity
      · rw [if_pos counted, if_pos (show args.length = routine.logged.arity from counted)]
        exact fun _ _ => ⟨rfl, rfl⟩
      · rw [if_neg counted, if_neg (show ¬ args.length = routine.logged.arity from counted)]
        exact fun _ _ => ⟨rfl, rfl⟩
  | member source =>
      obtain ⟨name, source, tag⟩ := source
      intro state log
      cases source with
      | property get => exact ⟨rfl, rfl⟩
      | cell get =>
          have traced := read_cell name (fun known : σ × Log T σ => get known.1) tag (state, log)
          have plain := read_cell name get tag state
          exact ⟨traced.1.trans plain.1.symm, (congrArg Prod.fst traced.2).trans plain.2.symm⟩

end Run

theorem Graph.traced_erases [Numeric T] (graph : Graph T σ) (earlier : graph.cells.Earlier) (inputs : List T) :
    Run.Erases (graph.traced inputs) (graph.run inputs) := by
  apply Graph.fold_related (fun (traced : Program T (σ × Log T σ)) (plain : Program T σ) =>
    Run.Erases (traced inputs) (plain inputs)) Shape.traced Shape.run _ _ graph earlier
  · exact fun _ _ => ⟨rfl, rfl⟩
  · intro index shape traced plain read each
    rw [Shape.traced, Shape.logged_map]
    refine Run.parallel_related _ _ Run.erases_congruence inputs plain traced _ ?_ shape _ shape.logged_parallel each
    rintro borrowed _ rfl args
    exact Run.erases_use borrowed args

end Formula
