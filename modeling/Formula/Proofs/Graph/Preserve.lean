import Formula.Proofs.Graph.Overflow
import Formula.Proofs.Numeric.Exact

set_option autoImplicit false

namespace Formula

variable {T σ : Type}

namespace Borrowed

def isVariable : Borrowed T σ → Bool
  | .routine _ => false
  | .member source => !source.isReadOnly

theorem variable_after (borrowed : Borrowed T σ) (isCell : borrowed.isVariable = true) (args : List T) (state : σ) :
    (borrowed.use args).after state = state := by
  cases borrowed with
  | routine function => exact absurd isCell (by simp [isVariable])
  | member source =>
      obtain ⟨name, source, tag⟩ := source
      cases source with
      | property get => exact absurd isCell (by simp [isVariable, Member.isReadOnly])
      | cell get => exact (Run.read_cell name get tag state).2

theorem variable_args (borrowed : Borrowed T σ) (isCell : borrowed.isVariable = true) (args : List T) :
    borrowed.use args = borrowed.use [] := by
  cases borrowed with
  | routine function => exact absurd isCell (by simp [isVariable])
  | member source => rfl

theorem early_constant (borrowed : Borrowed T σ) (early : borrowed.isEarly = true) : borrowed.isVariable = false := by
  cases borrowed with
  | routine function => rfl
  | member source => simp_all [isVariable, isEarly]

end Borrowed

namespace Graph

-- Children stand before their parents, and routines and members that pass for the same are the same.
structure WellFormed (graph : Graph T σ) : Prop where
  earlier : graph.cells.Earlier
  coherent : ∀ a b, graph.cells.Borrows a → graph.cells.Borrows b → a.identical b = true → a = b

-- Only cells give different values at different times, and nothing that the graph uses writes one.
structure Deterministic (graph : Graph T σ) : Prop where
  settled : ∀ borrowed, graph.cells.Borrows borrowed → borrowed.isVariable = false → borrowed.Settled
  quiet : ∀ borrowed cell, graph.cells.Borrows borrowed → borrowed.isVariable = false → graph.cells.Borrows cell →
    cell.isVariable = true → ∀ args state,
      (cell.use []).outcome ((borrowed.use args).after state) = (cell.use []).outcome state

theorem early_settled (graph : Graph T σ) (deterministic : graph.Deterministic) : graph.cells.EarlySettled :=
  fun borrowed uses early => deterministic.settled borrowed uses (borrowed.early_constant early)

def Current (graph : Graph T σ) (now state : σ) : Prop :=
  ∀ borrowed, graph.cells.Borrows borrowed → ∀ args, (borrowed.use args).outcome state = (borrowed.use args).outcome now

theorem undisturbed (graph : Graph T σ) (deterministic : graph.Deterministic) (used other : Borrowed T σ)
    (uses : graph.cells.Borrows used) (usesOther : graph.cells.Borrows other) (args more : List T) (state : σ) :
    (other.use more).outcome ((used.use args).after state) = (other.use more).outcome state := by
  by_cases cell : other.isVariable = true
  · by_cases alsoCell : used.isVariable = true
    · rw [used.variable_after alsoCell]
    · rw [other.variable_args cell]
      exact deterministic.quiet used other uses (by simpa using alsoCell) usesOther cell args state
  · exact deterministic.settled other usesOther (by simpa using cell) more _ _

theorem current_steady (graph : Graph T σ) (deterministic : graph.Deterministic) (now : σ) (borrowed : Borrowed T σ)
    (uses : graph.cells.Borrows borrowed) : borrowed.Steady (graph.Current now) now := by
  intro args state current
  refine ⟨congrArg Except.toOption (current borrowed uses args), fun other usesOther more => ?_⟩
  rw [undisturbed graph deterministic borrowed other uses usesOther]
  exact current other usesOther more

end Graph

theorem to_option_some {α : Type} (outcome : Except EvalError α) (value : α) :
    outcome.toOption = some value ↔ outcome = .ok value := by
  cases outcome <;> simp [Except.toOption]

section

variable [Numeric T]

theorem Meaning.value_effect (now : σ) (inputs : List T) (effect : Rewrite.Effect) (operand constant result : T)
    (holds : effect.Holds operand constant result) :
    (Meaning.value now inputs).effect operand constant effect = some result := by
  cases effect with
  | operand => exact congrArg some holds
  | constant => exact congrArg some holds
  | negated => exact (to_option_some _ result).mpr holds

variable [Exact T]

theorem Meaning.value_lawful (now : σ) (inputs : List T) (allowed : Borrowed T σ → Prop)
    (settled : ∀ borrowed, allowed borrowed → borrowed.isEarly = true → borrowed.Settled)
    (coherent : ∀ a b, allowed a → allowed b → a.identical b = true → a = b) :
    (Meaning.value now inputs).Lawful allowed where
  same a b same := (Exact.same_iff a b).mp same
  identical a b allowedA allowedB same := congrArg _ (coherent a b allowedA allowedB same)
  early borrowed args host value isAllowed early computed := by
    refine refines_of_eq _ _ ((to_option_some _ value).mpr ?_)
    change (borrowed.use (args.map fun value => value)).outcome now = .ok value
    rw [List.map_id', settled borrowed isAllowed early args now host]
    exact computed
  unary op a value computed := refines_of_eq _ _ ((to_option_some _ value).mpr computed)
  binary op a b value computed := refines_of_eq _ _ ((to_option_some _ value).mpr computed)
  left op a effect operand identity result computed :=
    value_effect now inputs effect operand a result
      (Exact.left a operand result op effect identity ((to_option_some _ result).mp computed))
  right op b effect operand identity result computed :=
    value_effect now inputs effect operand b result
      (Exact.right b operand result op effect identity ((to_option_some _ result).mp computed))
  noop conversion a noop := refines_of_eq _ _ ((to_option_some _ a).mpr (Discerning.noop conversion a noop))
  convert conversion a value computed := refines_of_eq _ _ ((to_option_some _ value).mpr computed)
  truthy a := rfl

namespace Graph

theorem optimized_borrows (graph : Graph T σ) (host : σ) (earlier : graph.cells.Earlier)
    (settled : graph.cells.EarlySettled) (borrowed : Borrowed T σ)
    (uses : (graph.optimized host).1.cells.Borrows borrowed) : graph.cells.Borrows borrowed := by
  rw [optimized_passed graph host earlier settled] at uses
  rcases passed_cells graph host earlier settled with ⟨same, -⟩ | ⟨inside, passed⟩
  · rwa [same] at uses
  · have placed := Pass.carry_all_placed graph.cells host earlier settled
    rw [passed] at uses
    exact placed.borrowed borrowed
      (Cells.reachable_borrows _ placed.normal.earlier _ (placed.bound _ inside) borrowed uses)

theorem optimized_gives (graph : Graph T σ) (wellFormed : graph.WellFormed) (deterministic : graph.Deterministic)
    (before now : σ) (inputs : List T) (value : T) (given : (graph.run inputs).outcome now = .ok value) :
    ((graph.optimized before).1.run inputs).outcome now = .ok value := by
  have settled := early_settled graph deterministic
  have steady := current_steady graph deterministic now
  have here : graph.Current now now := fun _ _ _ => rfl
  have raw := (graph_gives _ now inputs graph wellFormed.earlier steady now here).1
  have optimized := (graph_gives _ now inputs (graph.optimized before).1
    (optimized_normal graph before wellFormed.earlier settled).normal.earlier
    (fun borrowed uses => steady borrowed (optimized_borrows graph before wellFormed.earlier settled borrowed uses))
    now here).1
  have lawful := Meaning.value_lawful now inputs graph.cells.Borrows settled wellFormed.coherent
  have kept := optimized_refines _ graph (Meaning.layer_faithful _ _ lawful) before wellFormed.earlier settled
  rw [← to_option_some] at given ⊢
  exact optimized.trans (kept value (raw.symm.trans given))

end Graph

end

-- The types whose arithmetic is exact or refused.
inductive ExactType where
  | i64
  | u64
  | rational
deriving DecidableEq, Repr

namespace ExactType

def Value : ExactType → Type
  | i64 => Integer .signed
  | u64 => Integer .unsigned
  | rational => Rat

instance (type : ExactType) : Numeric type.Value :=
  match type with
  | i64 => inferInstanceAs (Numeric (Integer .signed))
  | u64 => inferInstanceAs (Numeric (Integer .unsigned))
  | rational => inferInstanceAs (Numeric Rat)

instance (type : ExactType) : Exact type.Value :=
  match type with
  | i64 => inferInstanceAs (Exact (Integer .signed))
  | u64 => inferInstanceAs (Exact (Integer .unsigned))
  | rational => inferInstanceAs (Exact Rat)

instance (type : ExactType) : Machine type.Value :=
  match type with
  | i64 => inferInstanceAs (Machine (Integer .signed))
  | u64 => inferInstanceAs (Machine (Integer .unsigned))
  | rational => inferInstanceAs (Machine Rat)

theorem overflow_fails (type : ExactType) (op : BinaryOperator) (a b value : type.Value)
    (overflows : Machine.overflows op a b) : Numeric.binary op a b ≠ .ok value := by
  cases type with
  | i64 | u64 => exact absurd overflows not_false
  | rational => exact Decimal.overflow_fails op a b value overflows

end ExactType

namespace Graph

-- The state of the host is the level.
def level : Member (Integer .signed) Nat := ⟨"level", .cell fun state => Integer.ofInt? .signed state, 0⟩

-- `x * 1 + level * predecessor(2)`.
def leveled : Graph (Integer .signed) Nat :=
  ⟨((((((((#[] : Cells (Integer .signed) Nat).push (.parameter 0)).push
    (.constant (Integer.ofBits .signed 1) none)).push (.binary .mul 0 1 ⟨2, 3⟩)).push (.member level)).push
    (.constant (Integer.ofBits .signed 2) none)).push (.call predecessor [4] ⟨16, 27⟩)).push
    (.binary .mul 3 5 ⟨14, 15⟩)).push (.binary .add 2 6 ⟨6, 7⟩)⟩

theorem leveled_borrows (borrowed : Borrowed (Integer .signed) Nat) (uses : leveled.cells.Borrows borrowed) :
    borrowed = .member level ∨ borrowed = .routine predecessor := by
  simp only [leveled, Cells.borrows_push, Shape.borrowed?, reduceCtorEq, or_false, Option.some.injEq] at uses
  rcases uses with (⟨index, shape, read, -⟩ | same) | same
  · simp at read
  · exact .inl same.symm
  · exact .inr same.symm

theorem leveled_well_formed : leveled.WellFormed := by
  constructor
  · iterate 8 refine Cells.earlier_push _ _ ?_ (by simp [Shape.children])
    exact Cells.earlier_empty
  · intro a b usesA usesB same
    rcases leveled_borrows a usesA with rfl | rfl <;> rcases leveled_borrows b usesB with rfl | rfl
    · rfl
    · exact absurd same (by simp [Borrowed.identical])
    · exact absurd same (by simp [Borrowed.identical])
    · rfl

theorem predecessor_use (args : List (Integer .signed)) (state : Nat) :
    ((Borrowed.routine predecessor).use args).outcome state = ((Borrowed.routine predecessor).use args).outcome 0 ∧
      ((Borrowed.routine predecessor).use args).after state = state := by
  simp only [Borrowed.use, Routine.call]
  split <;> exact ⟨rfl, rfl⟩

theorem leveled_deterministic : leveled.Deterministic := by
  constructor
  · intro borrowed uses fixed args before now
    rcases leveled_borrows borrowed uses with rfl | rfl
    · exact absurd fixed (by decide)
    · rw [(predecessor_use args before).1, (predecessor_use args now).1]
  · intro borrowed cell uses fixed _ _ args state
    rcases leveled_borrows borrowed uses with rfl | rfl
    · exact absurd fixed (by decide)
    · rw [(predecessor_use args state).2]

end Graph

end Formula
