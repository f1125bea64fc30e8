import Formula.Proofs.Graph.Idempotent

set_option autoImplicit false

namespace Formula

variable {T σ : Type} [Numeric T]

namespace Graph

-- Passes over a graph, each over what the one before it left, up to the first that rewrites nothing.
inductive Loop : Graph T σ → σ → Graph T σ → List PassReport → σ → Prop
  | last (graph : Graph T σ) (host : σ) (quiet : (graph.passed host).2.rewrites = 0) :
      Loop graph host (graph.passed host).1 [(graph.passed host).2] (graph.pass.run host).2
  | again (graph final : Graph T σ) (host after : σ) (reports : List PassReport)
      (busy : (graph.passed host).2.rewrites ≠ 0)
      (rest : Loop (graph.passed host).1 (graph.pass.run host).2 final reports after) :
      Loop graph host final ((graph.passed host).2 :: reports) after

theorem loop_within (graph final : Graph T σ) (host after : σ) (reports : List PassReport)
    (loop : graph.Loop host final reports after) (fuel : Nat) (enough : reports.length ≤ fuel) :
    (graph.optimizeWithin fuel).run host = ((final, reports), after) := by
  induction loop generalizing fuel with
  | last graph host quiet =>
      obtain ⟨more, rfl⟩ : ∃ more, fuel = more + 1 := Nat.exists_eq_add_one.mpr enough
      rw [optimize_within_run]
      exact if_pos quiet
  | again graph final host after reports busy rest ih =>
      obtain ⟨more, rfl⟩ : ∃ more, fuel = more + 1 := Nat.exists_eq_add_one.mpr (by simp at enough; omega)
      have later := ih more (Nat.le_of_succ_le_succ enough)
      rw [optimize_within_run]
      refine (if_neg busy).trans ?_
      exact congrArg (fun run => ((run.1.1, (graph.passed host).2 :: run.1.2), run.2)) later

theorem loop_unique (graph one other : Graph T σ) (host after later : σ) (reports others : List PassReport)
    (left : graph.Loop host one reports after) (right : graph.Loop host other others later) :
    ((one, reports), after) = ((other, others), later) := by
  have leftRun := loop_within graph one host after reports left (reports.length + others.length) (by omega)
  have rightRun := loop_within graph other host later others right (reports.length + others.length) (by omega)
  exact leftRun.symm.trans rightRun

-- What the passes over a graph report: the second one, if it takes place, does nothing.
def expectedReports (graph : Graph T σ) (host : σ) : List PassReport :=
  if (graph.passed host).2.rewrites = 0 then [(graph.passed host).2] else [(graph.passed host).2, ⟨0, 0, 0⟩]

theorem normal_loop (graph : Graph T σ) (host : σ) (normal : graph.Normal) :
    graph.Loop host graph [⟨0, 0, 0⟩] (graph.pass.run host).2 := by
  have idle := passed_idle graph host normal
  have last := Loop.last graph host (by rw [idle])
  rwa [idle] at last

theorem loop_ends [SymmetricSame T] (graph : Graph T σ) (host : σ) (earlier : graph.cells.Earlier)
    (settled : graph.cells.EarlySettled) :
    ∃ after, graph.Loop host (graph.passed host).1 (graph.expectedReports host) after := by
  unfold expectedReports
  split
  · rename_i quiet
    exact ⟨_, .last graph host quiet⟩
  · rename_i busy
    have second := normal_loop _ (graph.pass.run host).2 (passed_normal graph host earlier settled)
    exact ⟨_, .again graph _ host _ _ busy second⟩

theorem reports_bound (graph : Graph T σ) (host : σ) (earlier : graph.cells.Earlier) :
    (graph.expectedReports host).length ≤ 2 * graph.count + 1 := by
  unfold expectedReports
  split
  · simp
  · rename_i busy
    have some : graph.cells ≠ #[] := by
      intro empty
      rw [passed_idle graph host (empty_normal graph empty)] at busy
      exact busy rfl
    have positive := count_positive graph earlier some
    simp only [List.length_cons, List.length_nil]
    omega

theorem optimize_loops [SymmetricSame T] (graph : Graph T σ) (host : σ) (earlier : graph.cells.Earlier)
    (settled : graph.cells.EarlySettled) :
    ∃ after, graph.Loop host (graph.passed host).1 (graph.expectedReports host) after ∧
      graph.optimize.run host = (((graph.passed host).1, graph.expectedReports host), after) := by
  obtain ⟨after, loop⟩ := loop_ends graph host earlier settled
  exact ⟨after, loop, loop_within graph _ host after _ loop _ (reports_bound graph host earlier)⟩

-- The loop ends, and optimizing gives what it gives. Its first pass leaves no node that a rule
-- applies to, whatever cascades, so that any pass after it rewrites, removes and merges nothing.
theorem optimize_two_passes [SymmetricSame T] (graph : Graph T σ) (earlier : graph.cells.Earlier)
    (settled : graph.cells.EarlySettled) (before : σ) :
    (∀ (index : Nat) (shape : Shape T σ Nat), (graph.passed before).1.cells[index]? = some shape →
      ∀ host replacement, ¬ Rewrite.Rule (graph.passed before).1.cells host shape replacement) ∧
    (∀ host, (graph.passed before).1.passed host = ((graph.passed before).1, ⟨0, 0, 0⟩)) ∧
    (∀ final reports after, graph.Loop before final reports after ↔
      graph.optimize.run before = ((final, reports), after)) ∧
    graph.optimized before = ((graph.passed before).1, graph.expectedReports before) ∧
    ((OptimizeStats.ofReports (graph.optimized before).2).passes = 1 ∨
      (OptimizeStats.ofReports (graph.optimized before).2).passes = 2) := by
  have normal := passed_normal graph before earlier settled
  obtain ⟨after, loop, run⟩ := optimize_loops graph before earlier settled
  have optimized : graph.optimized before = ((graph.passed before).1, graph.expectedReports before) :=
    congrArg Prod.fst run
  refine ⟨normal.normal.irreducible, fun host => passed_idle _ host normal, ?_, optimized, ?_⟩
  · intro final reports later
    constructor
    · intro other
      exact run.trans (loop_unique graph _ final before after later _ reports loop other)
    · intro same
      obtain ⟨⟨rfl, rfl⟩, rfl⟩ := by simpa [Prod.ext_iff] using run.symm.trans same
      exact loop
  · rw [optimized, expectedReports]
    split
    · exact .inl rfl
    · exact .inr rfl

-- `0 - (x + predecessor(1))`: the call folds to zero, its sum to the parameter, the difference to a negation.
def cascade : Graph (Integer .signed) Nat :=
  ⟨((((((#[] : Cells (Integer .signed) Nat).push (.constant (Integer.ofBits .signed 0) none)).push (.parameter 0)).push
    (.constant (Integer.ofBits .signed 1) none)).push (.call predecessor [2] ⟨7, 18⟩)).push
    (.binary .add 1 3 ⟨5, 6⟩)).push (.binary .sub 0 4 ⟨1, 2⟩)⟩

theorem cascade_two_passes :
    cascade.cells.Earlier ∧ cascade.cells.EarlySettled ∧ (cascade.passed 0).2.rewrites = 3 ∧
      (∀ host, (cascade.passed 0).1.passed host = ((cascade.passed 0).1, ⟨0, 0, 0⟩)) ∧
      (cascade.optimized 0).2 = [(cascade.passed 0).2, ⟨0, 0, 0⟩] := by
  have earlier : cascade.cells.Earlier := by
    iterate 6 refine Cells.earlier_push _ _ ?_ (by simp [Shape.children])
    exact Cells.earlier_empty
  have settled : cascade.cells.EarlySettled := by
    intro borrowed uses _
    simp only [cascade, Cells.borrows_push, Shape.borrowed?, reduceCtorEq, or_false, Option.some.injEq] at uses
    rcases uses with ⟨index, shape, read, -⟩ | rfl
    · simp at read
    · intro args before now
      simp only [Borrowed.use, Routine.call]
      split <;> rfl
  have three : (cascade.passed 0).2.rewrites = 3 := by decide +kernel
  obtain ⟨-, idle, -, optimized, -⟩ := optimize_two_passes cascade earlier settled 0
  refine ⟨earlier, settled, three, idle, ?_⟩
  rw [optimized, expectedReports, if_neg (by rw [three]; decide)]

end Graph

end Formula
