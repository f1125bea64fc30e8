import Formula.Proofs.Graph.Passes
import Formula.Proofs.Graph.Walk
import Mathlib.Algebra.Order.BigOperators.Group.List
import Mathlib.Algebra.Order.Group.Nat

/-!
What optimizing saves. What a pass has removed and what the expressions it carried over still unfold to
make up the nodes of these expressions: a rule never makes a node heavier, so nothing is cut off where
the nodes that it saves are counted.
-/

set_option autoImplicit false

namespace Formula

variable {T σ : Type}

namespace Cells

def weight (cells : Cells T σ) (index : Nat) : Nat := cells.worth Shape.count 0 index

variable [Numeric T]

theorem holds_weight (cells : Cells T σ) (earlier : cells.Earlier) (place : Nat) (shape : Shape T σ Nat)
    (held : cells.Holds place shape) : cells.weight place = (shape.map cells.weight).count := by
  obtain ⟨entry, read, same⟩ := held
  have children : entry.children = shape.children := by
    rcases same with rfl | like
    · rfl
    · exact (alike_children shape entry like).symm
  rw [weight, worth_read _ _ cells earlier place entry read]
  simp only [Shape.count, Shape.children_map, children]
  rfl

end Cells

namespace Rewrite

theorem rule_fresh_children [Numeric T] (cells : Cells T σ) (host : σ) (shape fresh : Shape T σ Nat)
    (rule : Rule cells host shape (.fresh fresh)) :
    fresh.children = [] ∨ ∃ child ∈ shape.children, fresh.children = [child] := by
  generalize target : (Replacement.fresh fresh : Replacement T σ) = replacement at rule
  cases rule with
  | left op left right span a effect leftKnown rightOpen identity =>
      cases effect <;> simp_all [Effect.place, Shape.children]
  | right op left right span b effect leftOpen rightKnown identity =>
      cases effect <;> simp_all [Effect.place, Shape.children]
  | noop conversion operand span noop => simp at target
  | conditional condition accepted rejected a known => simp at target
  | _ =>
      obtain rfl := Replacement.fresh.inj target
      exact .inl rfl

end Rewrite

namespace Pass

def weighs (pass : Pass T σ) : Replacement T σ → Nat
  | .existing index => pass.sizes.getD index 0
  | .fresh shape => pass.sizeOf shape

-- The pass knows of each entry what it unfolds to.
def Weighed (pass : Pass T σ) : Prop := pass.sizes = pass.cells.values Shape.count 0

theorem size_of_weight (pass : Pass T σ) (weighed : pass.Weighed) (shape : Shape T σ Nat) :
    pass.sizeOf shape = (shape.map pass.cells.weight).count := by
  rw [sizeOf, weighed]
  rfl

variable [Numeric T]

theorem rule_lighter (pass : Pass T σ) (host : σ) (shape : Shape T σ Nat) (replacement : Replacement T σ)
    (rule : Rewrite.Rule pass.cells host shape replacement) : pass.weighs replacement ≤ pass.sizeOf shape := by
  have child (index : Nat) (isChild : index ∈ shape.children) : pass.sizes.getD index 0 + 1 ≤ pass.sizeOf shape := by
    have listed := List.le_sum_of_mem (List.mem_map_of_mem (f := (pass.sizes.getD · 0)) isChild)
    simp only [sizeOf, Shape.count, Shape.children_map]
    rw [List.sum_eq_foldr] at listed
    omega
  cases replacement with
  | existing index => exact Nat.le_of_succ_le (child index (Rewrite.rule_existing _ _ _ _ rule))
  | fresh node =>
      simp only [weighs]
      rcases Rewrite.rule_fresh_children _ _ _ _ rule with none | ⟨only, isChild, one⟩
      · simp [sizeOf, Shape.count, Shape.children_map, none]
      · have below := child only isChild
        simp [sizeOf, Shape.count, Shape.children_map, one] at below ⊢
        omega

theorem share_weighed (pass : Pass T σ) (weighed : pass.Weighed) (shape : Shape T σ Nat) :
    (pass.share shape).Weighed := by
  unfold share
  split
  · exact weighed
  · simp only [Weighed]
    rw [Cells.values_push, weighed, size_of_weight pass weighed]
    rfl

theorem share_removed (pass : Pass T σ) (shape : Shape T σ Nat) :
    (pass.share shape).report.removed = pass.report.removed := by
  unfold share
  split <;> rfl

theorem share_weight (pass : Pass T σ) (earlier : pass.cells.Earlier) (shape : Shape T σ Nat)
    (below : ∀ child ∈ shape.children, child < pass.cells.size) :
    (pass.share shape).cells.weight ((pass.share shape).placeOf pass.places.size) =
      (shape.map pass.cells.weight).count := by
  obtain ⟨place, places, shared⟩ := share_shared pass shape
  have later := Cells.shared_earlier _ _ shape place earlier below shared
  rw [place_new pass _ place places, Cells.holds_weight _ later place shape (Cells.shared_holds _ _ _ _ shared)]
  congr 1
  exact Shape.map_congr _ _ shape fun child isChild => Cells.worth_extends Shape.count 0 _ _ earlier later
    (Cells.shared_extends _ _ _ _ shared) child (below child isChild)

theorem replace_removed (pass : Pass T σ) (before : Nat) (replacement : Replacement T σ) :
    (pass.replace before replacement).report.removed = pass.report.removed + (before - pass.weighs replacement) := by
  cases replacement with
  | existing index => rfl
  | fresh shape => exact share_removed _ shape

theorem carry_saved (pass : Pass T σ) (sound : pass.Sound) (weighed : pass.Weighed) (shape : Shape T σ Nat) (host : σ)
    (below : ∀ child ∈ shape.children, child < pass.places.size) :
    (pass.carry shape host).1.Weighed ∧
      (pass.carry shape host).1.report.removed +
          (pass.carry shape host).1.cells.weight ((pass.carry shape host).1.placeOf pass.places.size) =
        pass.report.removed + pass.sizeOf (shape.map pass.placeOf) := by
  have inside := moved_below pass sound shape below
  rw [carry_decided]
  generalize shape.map pass.placeOf = moved at inside ⊢
  cases decision : Rewrite.decided pass.cells moved host with
  | none =>
      refine ⟨share_weighed pass weighed moved, ?_⟩
      simp only
      rw [share_removed, share_weight pass sound.earlier moved inside, size_of_weight pass weighed]
  | some replacement =>
      have rule := Rewrite.decided_rule pass.cells host moved replacement decision
      have lighter := rule_lighter pass host moved replacement rule
      simp only
      rw [replace_removed]
      cases replacement with
      | existing index =>
          refine ⟨weighed, ?_⟩
          have place := place_new pass (pass.replace (pass.sizeOf moved) (.existing index)) index rfl
          have weight : pass.cells.weight index = pass.weighs (.existing index) := by
            rw [weighs, weighed]
            rfl
          rw [place]
          change _ + pass.cells.weight index = _
          omega
      | fresh node =>
          let counting := pass.countRewrite (pass.sizeOf moved) (pass.sizeOf node)
          have weight : (counting.share node).cells.weight ((counting.share node).placeOf pass.places.size) =
              (node.map pass.cells.weight).count :=
            share_weight counting sound.earlier node fun child isChild =>
              inside child ((Rewrite.rule_fresh _ _ _ _ rule).1 child isChild)
          refine ⟨share_weighed counting weighed node, ?_⟩
          rw [← size_of_weight pass weighed node] at weight
          change _ + (counting.share node).cells.weight ((counting.share node).placeOf pass.places.size) = _
          rw [weight]
          change _ + pass.weighs (.fresh node) = _
          omega

mutual
theorem walks_saved (e : Expr T σ) (before after : Pass T σ × σ) (place : Nat) (walks : Walks e before place after)
    (sound : before.1.Sound) (weighed : before.1.Weighed) :
    after.1.Weighed ∧
      after.1.report.removed + after.1.cells.weight (after.1.placeOf place) = before.1.report.removed + e.count := by
  match walks with
  | .known value name _ _ bound held =>
      refine ⟨weighed, ?_⟩
      rw [Cells.holds_weight _ sound.earlier _ _ held]
      rfl
  | .node shape placed _ between same below =>
      obtain ⟨inside, grown, bound⟩ := walks_all_grown _ _ _ _ below sound
      obtain ⟨known, saved⟩ := walks_all_saved _ _ _ _ below sound weighed
      obtain ⟨next, here⟩ := carry_saved between.1 inside known placed between.2 bound
      refine ⟨next, ?_⟩
      rw [here, size_of_weight between.1 known, Expr.count, Expr.fold_node, Shape.count, Shape.count,
        ← List.sum_eq_foldr, ← List.sum_eq_foldr, Shape.children_map, Shape.children_map, Shape.children_map,
        List.map_map]
      change _ + (1 + (placed.children.map fun child => between.1.cells.weight (between.1.placeOf child)).sum) =
        _ + (1 + (shape.children.map Expr.count).sum)
      omega
theorem walks_all_saved (args : List (Expr T σ)) (before after : Pass T σ × σ) (places : List Nat)
    (walks : WalksAll args before places after) (sound : before.1.Sound) (weighed : before.1.Weighed) :
    after.1.Weighed ∧
      after.1.report.removed + (places.map fun place => after.1.cells.weight (after.1.placeOf place)).sum =
        before.1.report.removed + (args.map Expr.count).sum := by
  match walks with
  | .nil _ => exact ⟨weighed, rfl⟩
  | .cons arg rest _ between _ place places first later =>
      obtain ⟨inside, -, bound⟩ := walks_grown _ _ _ _ first sound
      obtain ⟨known, saved⟩ := walks_saved _ _ _ _ first sound weighed
      obtain ⟨next, grown, -⟩ := walks_all_grown _ _ _ _ later inside
      obtain ⟨counted, others⟩ := walks_all_saved _ _ _ _ later inside known
      -- The place of the first one weighs the same when the others have been carried over.
      have kept : after.1.cells.weight (after.1.placeOf place) = between.1.cells.weight (between.1.placeOf place) := by
        rw [grown.place place bound]
        exact Cells.worth_extends Shape.count 0 _ _ inside.earlier next.earlier grown.cells _ (inside.bound place bound)
      refine ⟨counted, ?_⟩
      rw [List.map_cons, List.sum_cons, List.map_cons, List.sum_cons, kept]
      omega
end

omit [Numeric T] in
theorem start_weighed : (start : Pass T σ).Weighed := rfl

end Pass

namespace Graph

variable [Numeric T]

theorem passed_removed [SymmetricSame T] (allowed : Borrowed T σ → Prop) (means : String → T → Prop)
    (single : ∀ name a b, means name a → means name b → a = b) (host : σ) (e : Expr T σ)
    (within : e.Every (Shape.Within allowed means)) :
    ((ofExpr e).passed host).2.removed + ((ofExpr e).passed host).1.count = e.count := by
  have walks := of_expr_walks allowed means single host e within
  obtain ⟨sound, -, bound⟩ := Pass.walks_grown _ _ _ _ walks Pass.start_sound
  obtain ⟨-, saved⟩ := Pass.walks_saved _ _ _ _ walks Pass.start_sound Pass.start_weighed
  have size := (Pass.carry_all_sound (ofExpr e).cells host (of_expr_earlier e)).size
  rw [passed_carried _ host size, count,
    Cells.fold_of_cells Shape.count 0 _ sound.earlier _ (sound.bound _ bound)]
  exact saved.trans (Nat.zero_add _)

theorem expected_removed (graph : Graph T σ) (host : σ) :
    (OptimizeStats.ofReports (graph.expectedReports host)).removed = (graph.passed host).2.removed := by
  unfold expectedReports
  split <;> simp [OptimizeStats.ofReports]

end Graph

namespace Evaluator

variable [Numeric T] [SymmetricSame T]

-- Where an expression compiles, optimizing it removes just as many nodes as its graph then has fewer: no
-- pass, whatever it has done so far, takes more nodes off than there are.
theorem removed_exactly (settings : Settings T σ) (evaluator : Evaluator T σ) (built : settings.build = .ok evaluator)
    (expression : String) (names : List String) (before now : σ) (raw : Compiled T σ)
    (plain : ((evaluator.compileWith expression names false).run before).1 = .ok raw)
    (settled : raw.graph.cells.EarlySettled) :
    (∃ optimized stats, ((evaluator.compileWith expression names true).run now).1 = .ok optimized ∧
      optimized.stats? = some stats ∧ optimized.graph.count ≤ raw.graph.count ∧
      stats.removed = raw.graph.count - optimized.graph.count) ∧
    ∀ (pass : Pass T σ) (shape : Shape T σ Nat) (host : σ) (replacement : Replacement T σ),
      Rewrite.decided pass.cells shape host = some replacement → pass.weighs replacement ≤ pass.sizeOf shape := by
  refine ⟨?_, fun pass shape host replacement decision =>
    pass.rule_lighter host shape replacement (Rewrite.decided_rule _ _ _ _ decision)⟩
  obtain ⟨parameters, e, bound, found, rfl⟩ := (compile_ok evaluator expression names false before raw).mp plain
  have shortened := (compile_ok evaluator expression names true now _).mpr ⟨parameters, e, bound, found, rfl⟩
  have orderly := Grammar.built_orderly settings evaluator built
  have covered := compiled_covered settings evaluator built parameters expression e found
  have balance := Graph.passed_removed _ _ (evaluator.grammar.constants_single orderly) now e covered
  have counted : (Graph.ofExpr e).count = e.count :=
    compiled_fold settings evaluator built parameters expression e found Shape.count 0
  obtain ⟨after, -, run⟩ := Graph.optimize_loops (Graph.ofExpr e) now (Graph.of_expr_earlier e) settled
  rw [finish_optimized, Graph.optimized, run] at shortened
  refine ⟨_, OptimizeStats.ofReports ((Graph.ofExpr e).expectedReports now), shortened, rfl, ?_⟩
  rw [Graph.expected_removed, finish_raw, counted]
  constructor <;> dsimp only <;> omega

-- The state of the host is how often it was asked.
def echo : Routine (Integer .signed) Nat :=
  ⟨.function, "echo", 1, fun args count => (.ok (args.headD (Integer.ofBits .signed 0)), count + 1), 0⟩

def studio : Settings (Integer .signed) Nat :=
  ⟨⟨true, false, true, true⟩, [⟨"host", none, [("unit", .constant (Integer.ofBits .signed 1)),
    ("echo", .routine .function 1 echo.body)]⟩], [], false, true, none⟩

-- `if(unit, x*1, echo(3))*unit`
def choice : Expr (Integer .signed) Nat :=
  let named : Expr (Integer .signed) Nat := .node (.constant (Integer.ofBits .signed 1) (some "unit"))
  let product :=
    .node (.binary .mul (.node (.parameter 0)) (.node (.constant (Integer.ofBits .signed 1) none)) ⟨10, 11⟩)
  let called := .node (.call echo [.node (.constant (Integer.ofBits .signed 3) none)] ⟨14, 18⟩)
  .node (.binary .mul (.node (.conditional named product called)) named ⟨22, 23⟩)

theorem choice_settled : (Graph.ofExpr choice).cells.EarlySettled := by
  have table : (Graph.ofExpr choice).cells =
      ((((((((#[] : Cells (Integer .signed) Nat).push (.constant (Integer.ofBits .signed 1) (some "unit"))).push
        (.parameter 0)).push (.constant (Integer.ofBits .signed 1) none)).push (.binary .mul 1 2 ⟨10, 11⟩)).push
        (.constant (Integer.ofBits .signed 3) none)).push (.call echo [4] ⟨14, 18⟩)).push (.conditional 0 3 5)).push
        (.binary .mul 6 0 ⟨22, 23⟩) := rfl
  intro borrowed uses _ args before now
  simp only [table, Cells.borrows_push, Shape.borrowed?, reduceCtorEq, or_false, Option.some.injEq] at uses
  rcases uses with ⟨index, shape, read, -⟩ | rfl
  · simp at read
  · simp only [Borrowed.use, Routine.call]
    split <;> rfl

theorem choice_removed :
    ∃ evaluator raw optimized, studio.build = .ok evaluator ∧
      ((evaluator.compileWith "if(unit, x*1, echo(3))*unit" ["x"] false).run 0).1 = .ok raw ∧
      ((evaluator.compileWith "if(unit, x*1, echo(3))*unit" ["x"] true).run 7).1 = .ok optimized ∧
      raw.graph.count = 9 ∧ optimized.graph.count = 1 ∧ optimized.stats?.map OptimizeStats.removed = some 8 := by
  obtain ⟨evaluator, built, parameters, bound, found⟩ : ∃ evaluator, studio.build = .ok evaluator ∧
      ∃ parameters, evaluator.grammar.bindParameters ["x"] = .ok parameters ∧
        evaluator.tree parameters "if(unit, x*1, echo(3))*unit" = .ok choice :=
    ⟨_, rfl, _, rfl, by with_unfolding_all rfl⟩
  have plain := (compile_ok evaluator _ ["x"] false 0 _).mpr ⟨parameters, choice, bound, found, rfl⟩
  have shortened := (compile_ok evaluator _ ["x"] true 7 _).mpr ⟨parameters, choice, bound, found, rfl⟩
  obtain ⟨⟨optimized, stats, compiled, known, -, removed⟩, -⟩ :=
    removed_exactly studio evaluator built _ _ 0 7 _ plain choice_settled
  obtain rfl := Except.ok.inj (shortened.symm.trans compiled)
  have one : ((finish "if(unit, x*1, echo(3))*unit" ["x"] true choice).run 7).1.graph.count = 1 := by decide +kernel
  refine ⟨evaluator, _, _, built, plain, shortened, rfl, one, ?_⟩
  rw [known, Option.map_some, removed, one]
  rfl

end Evaluator

end Formula
