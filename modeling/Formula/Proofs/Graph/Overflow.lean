import Formula.Proofs.Graph.Running
import Formula.Proofs.Numeric.Guard
import Formula.Proofs.Numeric.Integer
import Mathlib.Logic.Relation

/-!
Builds that check machine arithmetic for overflow stop where the others wrap, and agree with them elsewhere. A run that
gives a value does not stop, since no operation that overflows gives one.
-/

set_option autoImplicit false

namespace Formula

variable {T σ : Type}

inductive Build where
  | checked
  | wrapping
deriving DecidableEq, Repr

-- The operations that leave the range of a machine integer on the way to their result.
class Machine (T : Type) [Numeric T] where
  overflows : BinaryOperator → T → T → Prop

instance (s : Signedness) : Machine (Integer s) where
  overflows _ _ _ := False

instance : Machine Float where
  overflows _ _ _ := False

-- The magnitude of the exponent is taken before anything else is looked at.
instance : Machine Rat where
  overflows op _ y := op ∈ [.pow, .shl, .shr] ∧ y = Decimal.leastExponent

theorem Decimal.overflow_fails (op : BinaryOperator) (x y value : Rat) (overflows : Machine.overflows op x y) :
    Numeric.binary op x y ≠ .ok value := by
  obtain ⟨known, rfl⟩ := overflows
  have large (n : Int) (same : (leastExponent : Rat) = n) : ¬ n.natAbs ≤ maxExponent := by
    rw [← Rat.intCast_inj.mp same]
    decide
  simp only [List.mem_cons, List.not_mem_nil, or_false] at known
  intro computed
  change binary op x _ = .ok value at computed
  rcases known with rfl | rfl | rfl
  · obtain ⟨n, same, bounded, -⟩ := (power_ok x _ value).mp computed
    exact large n same bounded
  · obtain ⟨n, same, bounded, -⟩ := (left_ok x _ value).mp computed
    exact large n same bounded
  · obtain ⟨n, same, bounded, -⟩ := (right_ok x _ value).mp computed
    exact large n same bounded

theorem Run.bind_ok {α β : Type} (action : Run σ α) (next : α → Run σ β) (state : σ) (result : β)
    (done : (action >>= next).outcome state = .ok result) :
    ∃ value, action.outcome state = .ok value ∧ (next value).outcome (action.after state) = .ok result := by
  rw [outcome_bind] at done
  cases given : action.outcome state with
  | error error => simp [given] at done
  | ok value => exact ⟨value, rfl, by simpa [given] using done⟩

theorem Run.all_argument (inputs : List T) (before after : List (Program T σ)) (arg : Program T σ) (state : σ)
    (results : List T) (done : (Shape.runAll inputs (before ++ arg :: after)).outcome state = .ok results) :
    ∃ value, (arg inputs).outcome ((Shape.runAll inputs before).after state) = .ok value := by
  induction before generalizing state results with
  | nil =>
      obtain ⟨value, given, -⟩ := bind_ok _ _ state results done
      exact ⟨value, given⟩
  | cons first before ih =>
      obtain ⟨value, given, later⟩ := bind_ok _ _ state results done
      obtain ⟨values, rest, -⟩ := bind_ok _ _ _ results later
      obtain ⟨result, found⟩ := ih _ values rest
      refine ⟨result, ?_⟩
      rw [Shape.runAll, after_bind, given]
      simp only [after_bind]
      cases (Shape.runAll inputs before).outcome ((first inputs).after state) <;> exact found

namespace Cells

variable [Numeric T]

def program (cells : Cells T σ) (index : Nat) : Program T σ :=
  cells.worth Shape.run (fun _ => throw (.malformed "the expression is empty")) index

-- The run of an entry in a state comes to the run of a child in another one.
inductive Visits (cells : Cells T σ) (inputs : List T) : Nat × σ → Nat × σ → Prop
  | unary (index operand : Nat) (op : UnaryOperator) (span : Span) (state : σ)
      (read : cells[index]? = some (.unary op operand span)) : Visits cells inputs (index, state) (operand, state)
  | left (index left right : Nat) (op : BinaryOperator) (span : Span) (state : σ)
      (read : cells[index]? = some (.binary op left right span)) : Visits cells inputs (index, state) (left, state)
  | right (index left right : Nat) (op : BinaryOperator) (span : Span) (state : σ) (a : T)
      (read : cells[index]? = some (.binary op left right span))
      (given : (cells.program left inputs).outcome state = .ok a) :
      Visits cells inputs (index, state) (right, (cells.program left inputs).after state)
  | convert (index operand : Nat) (conversion : Conversion) (span : Span) (state : σ)
      (read : cells[index]? = some (.convert conversion operand span)) : Visits cells inputs (index, state) (operand, state)
  | argument (index arg : Nat) (routine : Routine T σ) (before after : List Nat) (span : Span) (state : σ) (values : List T)
      (read : cells[index]? = some (.call routine (before ++ arg :: after) span))
      (given : (Shape.runAll inputs (before.map cells.program)).outcome state = .ok values) :
      Visits cells inputs (index, state) (arg, (Shape.runAll inputs (before.map cells.program)).after state)
  | condition (index condition accepted rejected : Nat) (state : σ)
      (read : cells[index]? = some (.conditional condition accepted rejected)) :
      Visits cells inputs (index, state) (condition, state)
  | selected (index condition accepted rejected : Nat) (state : σ) (a : T)
      (read : cells[index]? = some (.conditional condition accepted rejected))
      (given : (cells.program condition inputs).outcome state = .ok a) :
      Visits cells inputs (index, state)
        (if Numeric.isTruthy a then accepted else rejected, (cells.program condition inputs).after state)

-- The run of an entry in a state comes to an operation that overflows.
def Overflows [Machine T] (cells : Cells T σ) (inputs : List T) (index : Nat) (state : σ) : Prop :=
  ∃ (place : Nat) (later : σ) (op : BinaryOperator) (left right : Nat) (span : Span) (a b : T),
    Relation.ReflTransGen (cells.Visits inputs) (index, state) (place, later) ∧
      cells[place]? = some (.binary op left right span) ∧ (cells.program left inputs).outcome later = .ok a ∧
      (cells.program right inputs).outcome ((cells.program left inputs).after later) = .ok b ∧ Machine.overflows op a b

section

variable (cells : Cells T σ) (earlier : cells.Earlier) (inputs : List T)

include earlier

theorem program_read (index : Nat) (shape : Shape T σ Nat) (read : cells[index]? = some shape) :
    cells.program index = (shape.map cells.program).run :=
  worth_read _ _ cells earlier index shape read

theorem binary_ok (index left right : Nat) (op : BinaryOperator) (span : Span) (state : σ) (value : T)
    (read : cells[index]? = some (.binary op left right span))
    (done : (cells.program index inputs).outcome state = .ok value) :
    ∃ a b, (cells.program left inputs).outcome state = .ok a ∧
      (cells.program right inputs).outcome ((cells.program left inputs).after state) = .ok b ∧
      Numeric.binary op a b = .ok value := by
  rw [program_read cells earlier index _ read] at done
  obtain ⟨a, givenLeft, later⟩ := Run.bind_ok _ _ state value done
  obtain ⟨b, givenRight, computed⟩ := Run.bind_ok _ _ _ value later
  exact ⟨a, b, givenLeft, givenRight, (Run.locate_ok _ _ _ _).mp computed⟩

theorem visit_ok (index child : Nat) (state later : σ) (visits : cells.Visits inputs (index, state) (child, later))
    (value : T) (done : (cells.program index inputs).outcome state = .ok value) :
    ∃ result, (cells.program child inputs).outcome later = .ok result := by
  cases visits with
  | unary _ operand op span _ read | convert _ operand op span _ read =>
      rw [program_read cells earlier index _ read] at done
      obtain ⟨a, given, -⟩ := Run.bind_ok _ _ state value done
      exact ⟨a, given⟩
  | left _ _ right op span _ read =>
      obtain ⟨a, b, given, -⟩ := binary_ok cells earlier inputs index child right op span state value read done
      exact ⟨a, given⟩
  | right _ left _ op span _ a read given =>
      obtain ⟨a, b, -, given, -⟩ := binary_ok cells earlier inputs index left child op span state value read done
      exact ⟨b, given⟩
  | argument _ arg routine before after span _ values read given =>
      rw [program_read cells earlier index _ read] at done
      obtain ⟨results, all, -⟩ := Run.bind_ok _ _ state value done
      rw [List.map_append, List.map_cons] at all
      exact Run.all_argument inputs _ _ _ state results all
  | condition _ condition accepted rejected _ read =>
      rw [program_read cells earlier index _ read] at done
      obtain ⟨a, given, -⟩ := Run.bind_ok _ _ state value done
      exact ⟨a, given⟩
  | selected _ condition accepted rejected _ a read given =>
      rw [program_read cells earlier index _ read] at done
      obtain ⟨b, same, selected⟩ := Run.bind_ok _ _ state value done
      obtain rfl := Except.ok.inj (given.symm.trans same)
      refine ⟨value, ?_⟩
      by_cases accepts : Numeric.isTruthy a = true
      · simpa only [if_pos accepts] using selected
      · simpa only [if_neg accepts] using selected

theorem visits_ok (start finish : Nat × σ) (visits : Relation.ReflTransGen (cells.Visits inputs) start finish)
    (value : T) (done : (cells.program start.1 inputs).outcome start.2 = .ok value) :
    ∃ result, (cells.program finish.1 inputs).outcome finish.2 = .ok result := by
  induction visits with
  | refl => exact ⟨value, done⟩
  | tail _ visit ih =>
      obtain ⟨result, given⟩ := ih
      exact visit_ok cells earlier inputs _ _ _ _ visit result given

theorem ok_calm [Machine T] (fails : ∀ (op : BinaryOperator) (a b value : T), Machine.overflows op a b →
    Numeric.binary op a b ≠ .ok value) (index : Nat) (state : σ) (value : T)
    (done : (cells.program index inputs).outcome state = .ok value) : ¬ cells.Overflows inputs index state := by
  rintro ⟨place, later, op, left, right, span, a, b, visits, read, givenLeft, givenRight, overflows⟩
  obtain ⟨result, reached⟩ := visits_ok cells earlier inputs _ _ visits value done
  obtain ⟨c, d, sameLeft, sameRight, computed⟩ :=
    binary_ok cells earlier inputs place left right op span later result read reached
  obtain rfl := Except.ok.inj (givenLeft.symm.trans sameLeft)
  obtain rfl := Except.ok.inj (givenRight.symm.trans sameRight)
  exact fails op a b result overflows computed

end

end Cells

def Pass.Overflows [Numeric T] [Machine T] (pass : Pass T σ) (shape : Shape T σ Nat) : Prop :=
  ∃ (op : BinaryOperator) (left right : Nat) (span : Span) (a b : T), shape.map pass.placeOf = .binary op left right span ∧
    pass.cells.constantAt? left = some a ∧ pass.cells.constantAt? right = some b ∧ Machine.overflows op a b

namespace Graph

variable [Numeric T]

section

variable [Machine T]

def Overflows (graph : Graph T σ) (inputs : List T) (now : σ) : Prop :=
  graph.cells.Overflows inputs graph.cells.top now

theorem calm_of_ok (graph : Graph T σ) (earlier : graph.cells.Earlier) (fails : ∀ (op : BinaryOperator) (a b value : T),
    Machine.overflows op a b → Numeric.binary op a b ≠ .ok value) (inputs : List T) (now : σ) (value : T)
    (done : (graph.run inputs).outcome now = .ok value) : ¬ graph.Overflows inputs now := by
  rw [run, fold_top] at done
  exact Cells.ok_calm graph.cells earlier inputs fails _ now value done

def PassOverflows (graph : Graph T σ) (host : σ) : Prop :=
  ∃ (before after : List (Shape T σ Nat)) (shape : Shape T σ Nat), graph.cells.toList = before ++ shape :: after ∧
    (Pass.carryAll before.toArray host).1.Overflows shape

-- One of the passes of optimizing folds an operation that overflows.
inductive FoldingOverflows : Graph T σ → σ → Prop
  | here (graph : Graph T σ) (host : σ) (overflows : graph.PassOverflows host) : FoldingOverflows graph host
  | later (graph : Graph T σ) (host : σ) (busy : (graph.passed host).2.rewrites ≠ 0)
      (rest : FoldingOverflows (graph.passed host).1 (graph.pass.run host).2) : FoldingOverflows graph host

theorem call_calm (graph : Graph T σ) (inputs : List T) (now : σ)
    (never : ∀ (op : BinaryOperator) (a b : T), ¬ Machine.overflows op a b) : ¬ graph.Overflows inputs now :=
  fun ⟨_, _, op, _, _, _, a, b, _, _, _, _, overflows⟩ => never op a b overflows

theorem folding_calm (graph : Graph T σ) (host : σ)
    (never : ∀ (op : BinaryOperator) (a b : T), ¬ Machine.overflows op a b) : ¬ graph.FoldingOverflows host := by
  intro overflows
  induction overflows with
  | here graph host overflows =>
      obtain ⟨before, after, shape, split, op, left, right, span, a, b, same, knownLeft, knownRight, overflows⟩ := overflows
      exact never op a b overflows
  | later graph host busy rest ih => exact ih

-- What a call comes to in a build that does not stop it.
def Yields (build : Build) (graph : Graph T σ) (inputs : List T) (now : σ) (outcome : Except EvalError T) : Prop :=
  (graph.run inputs).outcome now = outcome ∧ (build = .checked → ¬ graph.Overflows inputs now)

def OptimizesTo (build : Build) (graph : Graph T σ) (before : σ) (final : Graph T σ × List PassReport) : Prop :=
  graph.optimized before = final ∧ (build = .checked → ¬ graph.FoldingOverflows before)

end

-- `if(0, 2 ^ -2147483648, 1)`
def discarded : Graph Rat Unit :=
  ⟨((((((#[] : Cells Rat Unit).push (.constant 0 none)).push (.constant 2 none)).push
    (.constant (-2147483648) none)).push (.binary .pow 1 2 ⟨8, 9⟩)).push (.constant 1 none)).push (.conditional 0 3 4)⟩

-- The power is not computed in a call, but it is in a pass.
example : discarded.Yields .checked [] () (.ok 1) ∧ discarded.FoldingOverflows () := by
  have given : (discarded.run []).outcome () = .ok 1 := by rfl
  have earlier : discarded.cells.Earlier := by
    iterate 6 refine Cells.earlier_push _ _ ?_ (by simp [Shape.children])
    exact Cells.earlier_empty
  refine ⟨⟨given, fun _ => calm_of_ok discarded earlier Decimal.overflow_fails [] () 1 given⟩, .here _ _ ?_⟩
  refine ⟨[.constant 0 none, .constant 2 none, .constant (-2147483648) none], [.constant 1 none, .conditional 0 3 4],
    .binary .pow 1 2 ⟨8, 9⟩, rfl, .pow, 1, 2, ⟨8, 9⟩, 2, -2147483648, ?_, ?_⟩
  · rw [Shape.map]
    congr 1 <;> decide +kernel
  · exact ⟨by decide +kernel, by decide +kernel, by decide, by decide +kernel⟩

end Graph

def Compiled.Yields [Numeric T] [Machine T] (build : Build) (compiled : Compiled T σ) (inputs : List T) (now : σ)
    (outcome : Except EvalError T) : Prop :=
  (compiled.call inputs).outcome now = outcome ∧ (build = .checked → ¬ compiled.graph.Overflows inputs now)

end Formula
