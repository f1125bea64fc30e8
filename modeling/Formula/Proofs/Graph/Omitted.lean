import Formula.Proofs.Graph.Visits

set_option autoImplicit false

namespace Formula

variable {T σ : Type}

namespace Shape

-- What is used at a node, or below it by what its children stand for.
def uses (shape : Shape T σ (Borrowed T σ → Prop)) (borrowed : Borrowed T σ) : Prop :=
  shape.borrowed? = some borrowed ∨ ∃ child ∈ shape.children, child borrowed

theorem uses_map {ι : Type} (f : ι → Borrowed T σ → Prop) (shape : Shape T σ ι) (borrowed : Borrowed T σ) :
    (shape.map f).uses borrowed ↔ shape.borrowed? = some borrowed ∨ ∃ child ∈ shape.children, f child borrowed := by
  simp [uses, borrowed_map, children_map]

end Shape

namespace Cells

def UsesBelow (cells : Cells T σ) (index : Nat) : Borrowed T σ → Prop := cells.worth Shape.uses (fun _ => False) index

theorem uses_read (cells : Cells T σ) (earlier : cells.Earlier) (index : Nat) (shape : Shape T σ Nat)
    (read : cells[index]? = some shape) (borrowed : Borrowed T σ) :
    cells.UsesBelow index borrowed ↔
      shape.borrowed? = some borrowed ∨ ∃ child ∈ shape.children, cells.UsesBelow child borrowed := by
  rw [UsesBelow, worth_read _ _ cells earlier index shape read, Shape.uses_map]
  rfl

theorem uses_order (cells : Cells T σ) (earlier : cells.Earlier) (root : Nat) (bound : root < cells.size) (index : Nat)
    (member : index ∈ cells.orderOf root) (shape : Shape T σ Nat) (read : cells[index]? = some shape)
    (borrowed : Borrowed T σ) (used : shape.borrowed? = some borrowed) : cells.UsesBelow root borrowed := by
  revert member
  apply entry_induction cells earlier _ root bound
  intro root entry found below member
  rw [uses_read cells earlier root entry found]
  rcases (mem_order cells earlier root index entry found).mp member with ⟨child, isChild, inside⟩ | rfl
  · exact .inr ⟨child, isChild, below child isChild inside⟩
  · obtain rfl := Option.some.inj (read.symm.trans found)
    exact .inl used

theorem reachable_uses (cells : Cells T σ) (earlier : cells.Earlier) (root : Nat) (bound : root < cells.size)
    (borrowed : Borrowed T σ) (borrows : (cells.reachable root).Borrows borrowed) : cells.UsesBelow root borrowed := by
  obtain ⟨index, shape, read, used⟩ := borrows
  obtain ⟨old, original, member, -, oldRead, rfl⟩ := reachable_entry cells earlier root bound index shape read
  rw [Shape.borrowed_map] at used
  exact uses_order cells earlier root bound old member original oldRead borrowed used

end Cells

section

variable [Numeric T] (now : σ)

-- The children that a node keeps: of a conditional whose condition is known, only the case that it selects.
def Shape.kept {ι : Type} (known : ι → Option T) : Shape T σ ι → List ι
  | .conditional condition accepted rejected =>
      match known condition with
      | some a => [if Numeric.isTruthy a then accepted else rejected]
      | none => [condition, accepted, rejected]
  | shape => shape.children

theorem Shape.kept_children {ι : Type} (known : ι → Option T) (shape : Shape T σ ι)
    (other : ∀ condition accepted rejected a,
      shape = .conditional condition accepted rejected → known condition ≠ some a) :
    shape.kept known = shape.children := by
  cases shape with
  | conditional condition accepted rejected =>
      cases found : known condition with
      | none => simp only [kept, found]; rfl
      | some a => exact absurd found (other condition accepted rejected a rfl)
  | _ => rfl

theorem Shape.kept_map {ι κ : Type} (f : ι → κ) (known : κ → Option T) (shape : Shape T σ ι) :
    (shape.map f).kept known = (shape.kept fun child => known (f child)).map f := by
  cases shape with
  | conditional condition accepted rejected =>
      simp only [map, kept]
      cases known (f condition) with
      | none => rfl
      | some a => exact (congrArg (fun only => [only]) (apply_ite f _ _ _)).symm
  | _ => rfl

theorem Shape.kept_related {ι κ : Type} (related : ι → κ → Prop) (f : ι → Option T) (g : κ → Option T)
    (placed : Shape T σ ι) (shape : Shape T σ κ) (same : placed.outline = shape.outline)
    (known : placed.children.map f = shape.children.map g)
    (each : List.Forall₂ related placed.children shape.children) :
    List.Forall₂ related (placed.kept f) (shape.kept g) := by
  cases placed <;> cases shape <;> try simp only [outline, map, reduceCtorEq] at same
  case conditional.conditional a b c d e h =>
    obtain ⟨first, rest⟩ := List.cons.inj known
    simp only [kept, first]
    simp only [Shape.children, List.forall₂_cons, List.forall₂_nil_left_iff, and_true] at each
    cases g d with
    | none => simpa using each
    | some value =>
        dsimp only
        split
        · simpa using each.2.1
        · simpa using each.2.2
  all_goals exact each

theorem related_member {ι κ : Type} (related : ι → κ → Prop) (xs : List ι) (ys : List κ)
    (each : List.Forall₂ related xs ys) (x : ι) (member : x ∈ xs) : ∃ y ∈ ys, related x y := by
  induction each with
  | nil => simp at member
  | cons here _ ih =>
      rcases List.mem_cons.mp member with rfl | member
      · exact ⟨_, by simp, here⟩
      · obtain ⟨y, isIn, holds⟩ := ih member
        exact ⟨y, by simp [isIn], holds⟩

-- An expression uses this of the host outside of the cases that conditions leave out.
inductive Expr.Keeps (borrowed : Borrowed T σ) : Expr T σ → Prop
  | here (shape : Shape T σ (Expr T σ)) (used : shape.borrowed? = some borrowed) : Keeps borrowed (.node shape)
  | inside (shape : Shape T σ (Expr T σ)) (child : Expr T σ) (isKept : child ∈ shape.kept (Expr.folded now))
      (keeps : Keeps borrowed child) : Keeps borrowed (.node shape)

end

namespace Rewrite

variable [Numeric T]

theorem rule_kept (cells : Cells T σ) (host : σ) (shape : Shape T σ Nat) (replacement : Replacement T σ)
    (rule : Rule cells host shape replacement) (child : Nat)
    (isChild : replacement = .existing child ∨ ∃ node, replacement = .fresh node ∧ child ∈ node.children) :
    child ∈ shape.kept cells.constantAt? := by
  by_cases chosen : ∃ condition accepted rejected a, shape = .conditional condition accepted rejected ∧
      cells.constantAt? condition = some a
  · obtain ⟨condition, accepted, rejected, a, rfl, known⟩ := chosen
    cases rule with
    | conditional _ _ _ b found =>
        obtain rfl := Option.some.inj (known.symm.trans found)
        rcases isChild with same | ⟨node, same, -⟩
        · simpa [Shape.kept, known] using (Replacement.existing.inj same).symm
        · simp at same
  · rw [Shape.kept_children _ shape fun condition accepted rejected a same known =>
      chosen ⟨condition, accepted, rejected, a, same, known⟩]
    rcases isChild with rfl | ⟨node, rfl, isChild⟩
    · exact rule_existing cells host shape child rule
    · exact (rule_fresh cells host shape node rule).1 child isChild

theorem undecided_kept (cells : Cells T σ) (host : σ) (shape : Shape T σ Nat)
    (undecided : decided cells shape host = none) :
    shape.kept cells.constantAt? = shape.children := by
  apply Shape.kept_children
  rintro condition accepted rejected a rfl known
  have fires := rule_decided cells host _ _ (.conditional condition accepted rejected a known)
  simp [undecided] at fires

end Rewrite

section

variable [Numeric T] (allowed : Borrowed T σ → Prop)
  (coherent : ∀ a b, allowed a → allowed b → a.identical b = true → a = b)

theorem Cells.alike_borrowed (a b : Shape T σ Nat) (like : alike a b = true) (borrowed : Borrowed T σ)
    (used : b.borrowed? = some borrowed) : ∃ other, a.borrowed? = some other ∧ other.identical borrowed = true := by
  cases a <;> cases b <;> simp_all [alike, Shape.borrowed?]
  case member.member => exact used ▸ like
  case call.call => exact used ▸ like.1

include coherent

theorem Cells.holds_uses (cells : Cells T σ) (earlier : cells.Earlier)
    (inside : ∀ borrowed, cells.Borrows borrowed → allowed borrowed)
    (shape : Shape T σ Nat) (here : ∀ borrowed, shape.borrowed? = some borrowed → allowed borrowed) (place : Nat)
    (held : cells.Holds place shape) (borrowed : Borrowed T σ) (uses : cells.UsesBelow place borrowed) :
    shape.borrowed? = some borrowed ∨ ∃ child ∈ shape.children, cells.UsesBelow child borrowed := by
  obtain ⟨entry, read, same⟩ := held
  rw [uses_read cells earlier place entry read] at uses
  rcases same with rfl | like
  · exact uses
  · rcases uses with used | ⟨child, isChild, below⟩
    · obtain ⟨other, otherUsed, identical⟩ := alike_borrowed shape entry like borrowed used
      have known := inside borrowed ⟨place, entry, read, used⟩
      obtain rfl := coherent other borrowed (here other otherUsed) known identical
      exact .inl otherUsed
    · rw [← alike_children shape entry like] at isChild
      exact .inr ⟨child, isChild, below⟩

theorem Pass.share_uses (pass : Pass T σ) (earlier : pass.cells.Earlier) (shape : Shape T σ Nat)
    (below : ∀ child ∈ shape.children, child < pass.cells.size)
    (inside : ∀ borrowed, (pass.share shape).cells.Borrows borrowed → allowed borrowed)
    (here : ∀ borrowed, shape.borrowed? = some borrowed → allowed borrowed) (borrowed : Borrowed T σ)
    (uses : (pass.share shape).cells.UsesBelow ((pass.share shape).placeOf pass.places.size) borrowed) :
    shape.borrowed? = some borrowed ∨ ∃ child ∈ shape.children, pass.cells.UsesBelow child borrowed := by
  obtain ⟨place, places, shared⟩ := share_shared pass shape
  have later := Cells.shared_earlier _ _ shape place earlier below shared
  rw [place_new pass _ place places] at uses
  rcases Cells.holds_uses allowed coherent _ later inside shape here place (Cells.shared_holds _ _ _ _ shared) borrowed
    uses with used | ⟨child, isChild, more⟩
  · exact .inl used
  · rw [Cells.UsesBelow, Cells.worth_extends _ _ _ _ earlier later (Cells.shared_extends _ _ _ _ shared) child
      (below child isChild)] at more
    exact .inr ⟨child, isChild, more⟩

theorem Pass.carry_uses (pass : Pass T σ) (sound : pass.Sound) (shape : Shape T σ Nat) (host : σ)
    (below : ∀ child ∈ shape.children, child < pass.places.size)
    (inside : ∀ borrowed, pass.cells.Borrows borrowed → allowed borrowed)
    (here : ∀ borrowed, shape.borrowed? = some borrowed → allowed borrowed) :
    (∀ borrowed, (pass.carry shape host).1.cells.Borrows borrowed → allowed borrowed) ∧
      ∀ borrowed,
        (pass.carry shape host).1.cells.UsesBelow ((pass.carry shape host).1.placeOf pass.places.size) borrowed →
          shape.borrowed? = some borrowed ∨
            ∃ child ∈ (shape.map pass.placeOf).kept pass.cells.constantAt?, pass.cells.UsesBelow child borrowed := by
  obtain ⟨_, -, carried⟩ := carry_carried pass shape host
  have within := moved_below pass sound shape below
  rw [← Shape.borrowed_map pass.placeOf shape] at here ⊢
  have after : ∀ borrowed, (pass.carry shape host).1.cells.Borrows borrowed → allowed borrowed := by
    intro borrowed borrows
    rcases Cells.carried_borrows _ _ _ _ _ carried borrowed borrows with old | new
    · exact inside borrowed old
    · exact here borrowed new
  refine ⟨after, fun borrowed uses => ?_⟩
  rw [carry_decided] at after uses
  generalize shape.map pass.placeOf = moved at within here after uses ⊢
  cases decision : Rewrite.decided pass.cells moved host with
  | none =>
      rw [Rewrite.undecided_kept pass.cells host moved decision]
      simp only [decision] at after uses
      exact share_uses allowed coherent pass sound.earlier moved within after here borrowed uses
  | some replacement =>
      have kept := Rewrite.rule_kept pass.cells host moved replacement
        (Rewrite.decided_rule pass.cells host moved replacement decision)
      simp only [decision] at after uses
      cases replacement with
      | existing index =>
          rw [place_new pass (pass.replace (pass.sizeOf moved) (.existing index)) index rfl] at uses
          exact .inr ⟨index, kept index (.inl rfl), uses⟩
      | fresh node =>
          have quiet : node.borrowed? = none :=
            (Rewrite.rule_fresh _ _ _ _ (Rewrite.decided_rule pass.cells host moved _ decision)).2
          have inner : ∀ child ∈ node.children, child ∈ moved.kept pass.cells.constantAt? := fun child isChild =>
            kept child (.inr ⟨node, rfl, isChild⟩)
          have lower : ∀ child ∈ node.children, child < pass.cells.size := fun child isChild => within child
            ((Rewrite.rule_fresh _ _ _ _ (Rewrite.decided_rule pass.cells host moved _ decision)).1 child isChild)
          rcases share_uses allowed coherent (pass.countRewrite (pass.sizeOf moved) (pass.sizeOf node)) sound.earlier
            node lower after (by simp [quiet]) borrowed uses with used | ⟨child, isChild, more⟩
          · simp [quiet] at used
          · exact .inr ⟨child, inner child isChild, more⟩

end

namespace Pass

variable [Numeric T] (allowed : Borrowed T σ → Prop) (now : σ)

abbrev Within (allowed : Borrowed T σ → Prop) (e : Expr T σ) : Prop :=
  e.Every fun shape => ∀ borrowed, shape.borrowed? = some borrowed → allowed borrowed

mutual
theorem walks_keeps [Discerning T] (coherent : ∀ a b, allowed a → allowed b → a.identical b = true → a = b)
    (e : Expr T σ) (before after : Pass T σ × σ) (place : Nat)
    (walks : Walks e before place after) (sound : before.1.Sound)
    (inside : ∀ borrowed, before.1.cells.Borrows borrowed → allowed borrowed) (within : Within allowed e)
    (settled : e.Settled) :
    (∀ borrowed, after.1.cells.Borrows borrowed → allowed borrowed) ∧
      ∀ borrowed, after.1.cells.UsesBelow (after.1.placeOf place) borrowed → e.Keeps now borrowed := by
  match walks with
  | .known value name _ _ bound held =>
      refine ⟨inside, fun borrowed uses => ?_⟩
      rcases Cells.holds_uses allowed coherent _ sound.earlier inside _ (by simp [Shape.borrowed?]) _ held borrowed uses
        with used | ⟨child, isChild, -⟩
      · simp [Shape.borrowed?] at used
      · simp [Shape.children] at isChild
  | .node shape placed _ between same below =>
      obtain ⟨_, here, each⟩ := within
      obtain ⟨_, -, quiet⟩ := settled
      obtain ⟨next, -, bound⟩ := walks_all_grown _ _ _ _ below sound
      obtain ⟨known, -⟩ := walks_all_folded now _ _ _ _ below sound quiet
      obtain ⟨allowedAll, kept⟩ := walks_all_keeps coherent _ _ _ _ below sound inside each quiet
      have borrows : placed.borrowed? = shape.borrowed? := by
        rw [← Shape.borrowed_map (fun _ => ()) placed, ← Shape.borrowed_map (fun _ => ()) shape]
        exact congrArg Shape.borrowed? same
      obtain ⟨allowedNext, uses⟩ :=
        carry_uses allowed coherent between.1 next placed between.2 bound allowedAll (borrows ▸ here)
      refine ⟨allowedNext, fun borrowed used => ?_⟩
      rcases uses borrowed used with own | ⟨moved, isKept, more⟩
      · exact .here shape (borrows ▸ own)
      · rw [Shape.kept_map] at isKept
        obtain ⟨old, isOld, rfl⟩ := List.mem_map.mp isKept
        have related := Shape.kept_related _ _ _ placed shape same known kept
        obtain ⟨child, isChild, keeps⟩ := related_member _ _ _ related old isOld
        exact .inside shape child isChild (keeps borrowed more)
theorem walks_all_keeps [Discerning T] (coherent : ∀ a b, allowed a → allowed b → a.identical b = true → a = b)
    (args : List (Expr T σ)) (before after : Pass T σ × σ) (places : List Nat)
    (walks : WalksAll args before places after) (sound : before.1.Sound)
    (inside : ∀ borrowed, before.1.cells.Borrows borrowed → allowed borrowed)
    (within : ∀ arg ∈ args, Within allowed arg) (settled : ∀ arg ∈ args, Expr.Settled arg) :
    (∀ borrowed, after.1.cells.Borrows borrowed → allowed borrowed) ∧
      List.Forall₂ (fun place arg => ∀ borrowed, after.1.cells.UsesBelow (after.1.placeOf place) borrowed →
        Expr.Keeps now borrowed arg) places args := by
  match walks with
  | .nil _ => exact ⟨inside, .nil⟩
  | .cons arg rest _ between _ place places first later =>
      obtain ⟨next, -, bound⟩ := walks_grown _ _ _ _ first sound
      obtain ⟨further, grown, -⟩ := walks_all_grown _ _ _ _ later next
      obtain ⟨allowedNext, keeps⟩ :=
        walks_keeps coherent _ _ _ _ first sound inside (within arg (by simp)) (settled arg (by simp))
      obtain ⟨allowedAll, others⟩ := walks_all_keeps coherent _ _ _ _ later next allowedNext
        (fun other member => within other (by simp [member])) fun other member => settled other (by simp [member])
      refine ⟨allowedAll, .cons (fun borrowed uses => keeps borrowed ?_) others⟩
      rwa [grown.place place bound, Cells.UsesBelow,
        Cells.worth_extends _ _ _ _ next.earlier further.earlier grown.cells _ (next.bound place bound)] at uses
end

end Pass

namespace Evaluator

variable [Numeric T] [Discerning T]

-- Compiling with the optimizer uses the host for the visits of the whole tree, of the cases that constant
-- conditions leave out as well, and no more for what only such a case uses: it is not in the optimized
-- graph, which is all that a second pass and the calls come to.
theorem compile_visits (settings : Settings T σ) (evaluator : Evaluator T σ) (built : settings.build = .ok evaluator)
    (expression : String) (names : List String) (parameters : Parameters)
    (bound : evaluator.grammar.bindParameters names = .ok parameters) (e : Expr T σ)
    (found : evaluator.tree parameters expression = .ok e) (settled : e.Settled) (now : σ) :
    ∃ optimized stats, optimized.stats? = some stats ∧
      (evaluator.compileWith expression names true).run now = (.ok optimized,
        Uses.performed (e.visits now ++ if stats.passes = 1 then [] else optimized.graph.cells.retries) now) ∧
      (∀ use ∈ optimized.graph.cells.retries, e.Keeps now use.1) ∧
      ∀ borrowed, optimized.graph.cells.Borrows borrowed → e.Keeps now borrowed := by
  have orderly := Grammar.built_orderly settings evaluator built
  have covered := compiled_covered settings evaluator built parameters expression e found
  have walks := Graph.of_expr_walks _ _ (evaluator.grammar.constants_single orderly) now e covered
  obtain ⟨sound, -, place⟩ := Pass.walks_grown _ _ _ _ walks Pass.start_sound
  obtain ⟨-, used⟩ := Pass.walks_folded now _ _ _ _ walks Pass.start_sound settled
  obtain ⟨-, keeps⟩ := Pass.walks_keeps _ now (evaluator.grammar.offers_coherent orderly) _ _ _ _ walks Pass.start_sound
    (by rintro borrowed ⟨index, shape, read, -⟩; simp [Pass.start] at read)
    (Expr.every_imp _ _ (fun _ within => within.1) e covered) settled
  have run := Graph.optimize_after (Graph.ofExpr e) now (Graph.of_expr_earlier e) settled.graph
  have kept : ∀ borrowed, ((Graph.ofExpr e).passed now).1.cells.Borrows borrowed → e.Keeps now borrowed := by
    intro borrowed borrows
    have size := (Pass.carry_all_sound (Graph.ofExpr e).cells now (Graph.of_expr_earlier e)).size
    rw [Graph.passed_carried _ now size] at borrows
    exact keeps borrowed (Cells.reachable_uses _ sound.earlier _ (sound.bound _ place) borrowed borrows)
  have passes : (OptimizeStats.ofReports ((Graph.ofExpr e).expectedReports now)).passes = 1 ↔
      ((Graph.ofExpr e).passed now).2.rewrites = 0 := by
    unfold Graph.expectedReports
    split <;> simp_all [OptimizeStats.ofReports]
  have compiled := compile_run evaluator expression names true now parameters e bound found
  rw [finish_optimized, Graph.optimized, finish_after, run, used] at compiled
  refine ⟨⟨expression, names, ((Graph.ofExpr e).passed now).1, some ((Graph.ofExpr e).expectedReports now)⟩,
    OptimizeStats.ofReports ((Graph.ofExpr e).expectedReports now), rfl, ?_, fun use member =>
      kept use.1 (Cells.retries_borrowed _ use member), kept⟩
  rw [Uses.performed_append]
  simp only [passes]
  exact compiled

-- `if(1, 2, echo(3))`
def foregone : Expr (Integer .signed) Nat :=
  .node (.conditional (.node (.constant (Integer.ofBits .signed 1) none))
    (.node (.constant (Integer.ofBits .signed 2) none))
    (.node (.call echo [.node (.constant (Integer.ofBits .signed 3) none)] ⟨9, 13⟩)))

theorem foregone_tree :
    ∃ evaluator, studio.build = .ok evaluator ∧ ∃ parameters, evaluator.grammar.bindParameters [] = .ok parameters ∧
      evaluator.tree parameters "if(1, 2, echo(3))" = .ok foregone := ⟨_, rfl, _, rfl, by with_unfolding_all rfl⟩

theorem foregone_settled : foregone.Settled := by
  have constant (value : Integer .signed) : (Expr.node (.constant value none) : Expr (Integer .signed) Nat).Settled :=
    .node _ (by rintro borrowed ⟨⟩) (by simp [Shape.children])
  have call : (Expr.node (.call echo [.node (.constant (Integer.ofBits .signed 3) none)] ⟨9, 13⟩)).Settled := by
    refine .node _ ?_ fun child isChild => List.mem_singleton.mp isChild ▸ constant _
    rintro _ ⟨⟩ - args before now
    simp only [Borrowed.use, Routine.call]
    split <;> rfl
  refine .node _ (by rintro borrowed ⟨⟩) ?_
  exact List.forall_mem_cons.mpr ⟨constant _, List.forall_mem_cons.mpr ⟨constant _, List.forall_mem_singleton.mpr call⟩⟩

-- Only the case that is left out calls.
theorem foregone_spares : ¬ foregone.Keeps 0 (.routine echo) := by
  rintro (⟨_, used⟩ | ⟨_, child, isKept, keeps⟩)
  · simp [Shape.borrowed?] at used
  · obtain rfl := List.mem_singleton.mp (show child ∈ [.node (.constant (Integer.ofBits .signed 2) none)] from isKept)
    rcases keeps with ⟨_, used⟩ | ⟨_, child, isKept, -⟩
    · simp [Shape.borrowed?] at used
    · simp [Shape.kept, Shape.children] at isKept

theorem foregone_visits :
    ∃ evaluator optimized, studio.build = .ok evaluator ∧ foregone.Settled ∧
      (evaluator.compileWith "if(1, 2, echo(3))" [] true).run 0 = (.ok optimized, 1) ∧
      ¬ optimized.graph.cells.Borrows (.routine echo) := by
  obtain ⟨evaluator, built, parameters, bound, found⟩ := foregone_tree
  obtain ⟨optimized, stats, known, compiled, -, kept⟩ :=
    compile_visits studio evaluator built _ [] parameters bound _ found foregone_settled 0
  have ready := compile_run evaluator _ [] true 0 parameters foregone bound found
  have done : ((finish "if(1, 2, echo(3))" [] true foregone).run 0).1 = optimized :=
    Except.ok.inj (Prod.mk.inj (ready.symm.trans compiled)).1
  have quiet : optimized.graph.cells.retries = [] := by
    rw [← done]
    with_unfolding_all rfl
  rw [quiet, ite_self] at compiled
  exact ⟨evaluator, optimized, built, foregone_settled, compiled, fun borrows => foregone_spares (kept _ borrows)⟩

-- A case that a constant condition leaves out is evaluated while the text is compiled, though never by a call
-- of what is compiled without the optimizer.
theorem foregone_invoked :
    ∃ evaluator, studio.build = .ok evaluator ∧
      (∃ parameters, evaluator.grammar.bindParameters [] = .ok parameters ∧
        evaluator.tree parameters "if(1, 2, echo(3))" = .ok foregone) ∧
      ¬ foregone.Keeps 0 (.routine echo) ∧
      (∃ raw, (evaluator.compileWith "if(1, 2, echo(3))" [] false).run 0 = (.ok raw, 0) ∧
        (raw.call []).outcome 0 = .ok (Integer.ofBits .signed 2) ∧ (raw.call []).after 0 = 0) ∧
      ((evaluator.compileWith "if(1, 2, echo(3))" [] true).run 0).2 = 1 := by
  obtain ⟨evaluator, built, parameters, bound, found⟩ := foregone_tree
  have plain := compile_run evaluator _ [] false 0 parameters foregone bound found
  have shortened := compile_run evaluator _ [] true 0 parameters foregone bound found
  refine ⟨evaluator, built, ⟨parameters, bound, found⟩, foregone_spares, ⟨_, plain, ?_, ?_⟩, ?_⟩
  · with_unfolding_all rfl
  · with_unfolding_all rfl
  · rw [shortened]
    with_unfolding_all rfl

end Evaluator

end Formula
