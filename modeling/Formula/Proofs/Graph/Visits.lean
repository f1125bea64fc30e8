import Formula.Proofs.Graph.Savings
import Formula.Proofs.Graph.Sketch

/-!
What optimizing a tree does to its host: which bodies and properties it invokes, with which arguments
and in which order. A pass tries every node whose operands fold, in both cases of a conditional, also
where the condition has been found to be constant.
-/

set_option autoImplicit false

namespace Formula

variable {T σ : Type}

abbrev Uses (T σ : Type) := List (Borrowed T σ × List T)

def Uses.performed (uses : Uses T σ) (host : σ) : σ :=
  uses.foldl (fun state use => (use.1.use use.2).after state) host

theorem Uses.performed_append (first later : Uses T σ) (host : σ) :
    (first ++ later : Uses T σ).performed host = later.performed (first.performed host) :=
  List.foldl_append

namespace Shape

def value? {ι : Type} : Shape T σ ι → Option T
  | .constant value _ => some value
  | _ => none

theorem map_outline {ι κ α : Type} (placed : Shape T σ ι) (shape : Shape T σ κ) (f : ι → α) (g : κ → α)
    (same : placed.outline = shape.outline) (children : placed.children.map f = shape.children.map g) :
    placed.map f = shape.map g := by
  cases placed <;> cases shape <;> simp_all [outline, map, Shape.children]

def Settled {ι : Type} (shape : Shape T σ ι) : Prop :=
  ∀ borrowed, shape.borrowed? = some borrowed → borrowed.isEarly = true → borrowed.Settled

-- What the optimizer uses of the host when it comes to a node over what its children fold to.
def tries : Shape T σ (Option T) → Uses T σ
  | .member source => if source.isReadOnly then [(.member source, [])] else []
  | .call routine args _ =>
      match args.mapM id with
      | some values => if routine.isFoldable then [(.routine routine, values)] else []
      | none => []
  | _ => []

variable [Numeric T]

def annihilated (op : BinaryOperator) : Option T → Option T → Option T
  | some a, none => if Numeric.isZero a && op ∈ [.mul, .bitAnd, .shl, .shr] then some a else none
  | none, some b => if Numeric.isZero b && op ∈ [.mul, .bitAnd] then some b else none
  | _, _ => none

def folded (host : σ) : Shape T σ (Option T) → Option T
  | .constant value _ => some value
  | .parameter _ => none
  | .member source => if source.isReadOnly then (source.read.outcome host).toOption else none
  | .unary op operand _ => operand.bind fun a => (Numeric.unary op a).toOption
  | .binary op (some a) (some b) _ => (Numeric.binary op a b).toOption
  | .binary op left right _ => annihilated op left right
  | .convert conversion operand _ =>
      if conversion.isNoop T then operand else operand.bind fun a => (conversion.apply a).toOption
  | .call routine args _ =>
      if routine.isFoldable then (args.mapM id).bind fun values => ((routine.call values).outcome host).toOption
      else none
  | .conditional condition accepted rejected =>
      condition.bind fun a => if Numeric.isTruthy a then accepted else rejected

theorem folded_settled (shape : Shape T σ (Option T)) (settled : shape.Settled) (before now : σ) :
    shape.folded before = shape.folded now := by
  cases shape with
  | member source =>
      simp only [folded]
      split
      · rename_i readOnly
        exact congrArg Except.toOption (settled (.member source) rfl readOnly [] before now)
      · rfl
  | call routine args span =>
      simp only [folded]
      split
      · rename_i foldable
        exact congrArg (Option.bind _) (funext fun values =>
          congrArg Except.toOption (settled (.routine routine) rfl foldable values before now))
      · rfl
  | binary op left right span => cases left <;> cases right <;> rfl
  | _ => rfl

def visited (host : σ) (shape : Shape T σ (Option T × Uses T σ)) : Option T × Uses T σ :=
  let known := shape.map Prod.fst
  (known.folded host, (shape.children.map Prod.snd).flatten ++ known.tries)

end Shape

namespace Expr

variable [Numeric T]

def visited (host : σ) : Expr T σ → Option T × Uses T σ := fold (Shape.visited host)

def Settled (e : Expr T σ) : Prop := e.Every Shape.Settled

def folded (host : σ) (e : Expr T σ) : Option T := (e.visited host).1

def visits (host : σ) (e : Expr T σ) : Uses T σ := (e.visited host).2

theorem folded_node (host : σ) (shape : Shape T σ (Expr T σ)) :
    folded host (.node shape) = (shape.map (folded host)).folded host := by
  rw [folded, visited, fold_node, Shape.visited, Shape.map_map]
  rfl

theorem visits_node (host : σ) (shape : Shape T σ (Expr T σ)) :
    visits host (.node shape) = (shape.children.map (visits host)).flatten ++ (shape.map (folded host)).tries := by
  rw [visits, visited, fold_node, Shape.visited, Shape.map_map, Shape.children_map, List.map_map]
  rfl

theorem visits_conditional (host : σ) (condition accepted rejected : Expr T σ) :
    visits host (.node (.conditional condition accepted rejected)) =
      visits host condition ++ visits host accepted ++ visits host rejected := by
  simp [visits_node, Shape.children, Shape.map, Shape.tries]

end Expr

namespace Rewrite

variable [Numeric T]

def constantOf? (cells : Cells T σ) : Replacement T σ → Option T
  | .existing index => cells.constantAt? index
  | .fresh shape => shape.value?

omit [Numeric T] in
theorem constants_known (cells : Cells T σ) (args : List Nat) :
    constants? cells args = (args.map cells.constantAt?).mapM id := by
  induction args with
  | nil => rfl
  | cons arg rest ih =>
      unfold constants? at ih ⊢
      rw [List.map_cons, List.mapM_cons, List.mapM_cons, ih]
      rfl

theorem rewrite_after (cells : Cells T σ) (shape : Shape T σ Nat) (host : σ) :
    ((rewrite? cells shape).run host).2 = (shape.map cells.constantAt?).tries.performed host := by
  cases shape with
  | member source =>
      simp only [rewrite?, Shape.map, Shape.tries]
      split <;> rfl
  | call routine args span =>
      simp only [rewrite?, Shape.map, Shape.tries, ← constants_known]
      cases constants? cells args <;> split <;> rfl
  | binary op left right span =>
      simp only [rewrite?, Shape.map, Shape.tries]
      cases cells.constantAt? left <;> cases cells.constantAt? right <;> rfl
  | convert conversion operand span =>
      simp only [rewrite?, Shape.map, Shape.tries]
      split
      · rfl
      · cases cells.constantAt? operand <;> rfl
  | unary op operand span =>
      simp only [rewrite?, Shape.map, Shape.tries]
      cases cells.constantAt? operand <;> rfl
  | conditional condition accepted rejected =>
      simp only [rewrite?, Shape.map, Shape.tries]
      cases cells.constantAt? condition <;> rfl
  | constant value name => rfl
  | parameter index => rfl

omit [Numeric T] in
theorem folded_constant (cells : Cells T σ) (outcome : Except EvalError T) :
    (folded? outcome : Option (Replacement T σ)).elim none (constantOf? cells) = outcome.toOption := by
  cases outcome <;> rfl

theorem left_annihilated (cells : Cells T σ) (op : BinaryOperator) (a : T) (left right : Nat) (span : Span)
    (leftKnown : cells.constantAt? left = some a) (rightOpen : cells.constantAt? right = none) :
    (leftIdentity? op a left right span : Option (Replacement T σ)).elim none (constantOf? cells) =
      Shape.annihilated op (some a) none := by
  unfold leftIdentity? Shape.annihilated
  by_cases zero : Numeric.isZero a = true
  · simp only [zero, if_true, Bool.true_and]
    cases op <;> simp [constantOf?, negated, Shape.value?, leftKnown, rightOpen]
  · simp only [zero, Bool.false_eq_true, if_false, Bool.false_and]
    rw [apply_ite (Option.elim · none (constantOf? cells)), apply_ite (Option.elim · none (constantOf? cells))]
    simp [constantOf?, negated, Shape.value?, rightOpen]

theorem right_annihilated (cells : Cells T σ) (op : BinaryOperator) (b : T) (left right : Nat) (span : Span)
    (leftOpen : cells.constantAt? left = none) (rightKnown : cells.constantAt? right = some b) :
    (rightIdentity? op b left right span : Option (Replacement T σ)).elim none (constantOf? cells) =
      Shape.annihilated op none (some b) := by
  unfold rightIdentity? Shape.annihilated
  by_cases zero : Numeric.isZero b = true
  · simp only [zero, if_true, Bool.true_and]
    cases op <;> simp [constantOf?, leftOpen, rightKnown]
  · simp only [zero, Bool.false_eq_true, if_false, Bool.false_and]
    rw [apply_ite (Option.elim · none (constantOf? cells)), apply_ite (Option.elim · none (constantOf? cells))]
    simp [constantOf?, negated, Shape.value?, leftOpen]

theorem decided_folded (cells : Cells T σ) (shape : Shape T σ Nat) (host : σ) :
    (shape.map cells.constantAt?).folded host =
      (decided cells shape host).elim shape.value? (constantOf? cells) := by
  unfold decided rewrite?
  cases shape with
  | constant value name => rfl
  | parameter index => rfl
  | member source =>
      simp only [Shape.map, Shape.folded]
      split
      · rw [folding_outcome]
        exact (folded_constant cells _).symm
      · rfl
  | unary op operand span =>
      simp only [Shape.map, Shape.folded]
      cases cells.constantAt? operand with
      | none => rfl
      | some value => exact (folded_constant cells _).symm
  | binary op left right span =>
      simp only [Shape.map]
      cases leftKnown : cells.constantAt? left with
      | none =>
          cases rightKnown : cells.constantAt? right with
          | none => rfl
          | some b => exact (right_annihilated cells op b left right span leftKnown rightKnown).symm
      | some a =>
          cases rightKnown : cells.constantAt? right with
          | none => exact (left_annihilated cells op a left right span leftKnown rightKnown).symm
          | some b => exact (folded_constant cells _).symm
  | convert conversion operand span =>
      simp only [Shape.map, Shape.folded]
      split
      · rfl
      · cases cells.constantAt? operand with
        | none => rfl
        | some value => exact (folded_constant cells _).symm
  | call routine args span =>
      simp only [Shape.map, Shape.folded, ← constants_known]
      split
      · cases constants? cells args with
        | none => rfl
        | some values =>
            simp only [folding_outcome]
            exact (folded_constant cells _).symm
      · rfl
  | conditional condition accepted rejected =>
      simp only [Shape.map, Shape.folded]
      cases cells.constantAt? condition with
      | none => rfl
      | some value => exact (apply_ite cells.constantAt? _ _ _).symm

end Rewrite

namespace Cells

variable [Numeric T]

theorem holds_constant [Discerning T] (cells : Cells T σ) (place : Nat) (shape : Shape T σ Nat)
    (held : cells.Holds place shape) : cells.constantAt? place = shape.value? := by
  obtain ⟨entry, read, same⟩ := held
  have label : shape.label = entry.label := by
    rcases same with rfl | like
    · rfl
    · exact ((alike_iff shape entry).mp like).1
  rw [constantAt?, read]
  cases shape <;> cases entry <;> simp_all [Shape.label, Shape.value?]

end Cells

namespace Pass

variable [Numeric T]

theorem carry_after (pass : Pass T σ) (shape : Shape T σ Nat) (host : σ) :
    (pass.carry shape host).2 = ((shape.map pass.placeOf).map pass.cells.constantAt?).tries.performed host := by
  rw [← Rewrite.rewrite_after]
  unfold carry step
  simp only [StateT.run_bind]
  delta placeOf
  generalize (Rewrite.rewrite? pass.cells (shape.map fun child => pass.places.getD child 0)).run host = outcome
  obtain ⟨decision, after⟩ := outcome
  cases decision <;> rfl

theorem share_folded [Discerning T] (pass : Pass T σ) (shape : Shape T σ Nat) :
    (pass.share shape).cells.constantAt? ((pass.share shape).placeOf pass.places.size) = shape.value? := by
  obtain ⟨place, places, shared⟩ := share_shared pass shape
  rw [place_new pass _ place places]
  exact Cells.holds_constant _ place shape (Cells.shared_holds _ _ _ _ shared)

theorem carry_folded [Discerning T] (pass : Pass T σ) (shape : Shape T σ Nat) (host : σ) :
    (pass.carry shape host).1.cells.constantAt? ((pass.carry shape host).1.placeOf pass.places.size) =
      ((shape.map pass.placeOf).map pass.cells.constantAt?).folded host := by
  rw [carry_decided, Rewrite.decided_folded]
  generalize shape.map pass.placeOf = moved
  cases Rewrite.decided pass.cells moved host with
  | none => exact share_folded pass moved
  | some replacement =>
      cases replacement with
      | existing index =>
          simp only [Option.elim_some]
          rw [place_new pass (pass.replace (pass.sizeOf moved) (.existing index)) index rfl]
          rfl
      | fresh node => exact share_folded (pass.countRewrite (pass.sizeOf moved) (pass.sizeOf node)) node

variable (now : σ)

mutual
theorem walks_folded [Discerning T] (e : Expr T σ) (before after : Pass T σ × σ) (place : Nat)
    (walks : Walks e before place after) (sound : before.1.Sound) (settled : e.Settled) :
    after.1.cells.constantAt? (after.1.placeOf place) = e.folded now ∧
      after.2 = (e.visits now).performed before.2 := by
  match walks with
  | .known value name _ _ bound held =>
      refine ⟨?_, rfl⟩
      rw [Cells.holds_constant _ _ _ held, Expr.folded_node]
      rfl
  | .node shape placed _ between same below =>
      obtain ⟨_, here, each⟩ := settled
      obtain ⟨known, used⟩ := walks_all_folded _ _ _ _ below sound each
      have moved : (placed.map between.1.placeOf).map between.1.cells.constantAt? = shape.map (Expr.folded now) := by
        rw [Shape.map_map]
        exact Shape.map_outline placed shape _ _ same known
      have quiet : (shape.map (Expr.folded now)).Settled := by
        rw [Shape.Settled, Shape.borrowed_map]
        exact here
      rw [carry_folded, carry_after, moved, Expr.folded_node, Expr.visits_node, Uses.performed_append, ← used]
      exact ⟨Shape.folded_settled _ quiet between.2 now, rfl⟩
theorem walks_all_folded [Discerning T] (args : List (Expr T σ)) (before after : Pass T σ × σ) (places : List Nat)
    (walks : WalksAll args before places after) (sound : before.1.Sound) (settled : ∀ arg ∈ args, Expr.Settled arg) :
    (places.map fun place => after.1.cells.constantAt? (after.1.placeOf place)) = args.map (Expr.folded now) ∧
      after.2 = Uses.performed (args.map (Expr.visits now)).flatten before.2 := by
  match walks with
  | .nil _ => exact ⟨rfl, rfl⟩
  | .cons arg rest _ between _ place places first later =>
      obtain ⟨inside, -, bound⟩ := walks_grown _ _ _ _ first sound
      obtain ⟨known, used⟩ := walks_folded _ _ _ _ first sound (settled arg (by simp))
      obtain ⟨-, grown, -⟩ := walks_all_grown _ _ _ _ later inside
      obtain ⟨others, more⟩ := walks_all_folded _ _ _ _ later inside fun other member =>
        settled other (by simp [member])
      have kept : after.1.cells.constantAt? (after.1.placeOf place) =
          between.1.cells.constantAt? (between.1.placeOf place) := by
        rw [grown.place place bound]
        exact Cells.constant_of_read _ _ _ _ (grown.cells.read _ (inside.bound place bound))
      rw [List.map_cons, List.map_cons, List.map_cons, List.flatten_cons, Uses.performed_append, ← used, kept, known,
        others]
      exact ⟨rfl, more⟩
end

end Pass

namespace Cells

-- What is tried once more by a pass that finds nothing to do.
def retries (cells : Cells T σ) : Uses T σ := cells.toList.flatMap fun shape => (shape.map cells.constantAt?).tries

theorem retries_push (cells : Cells T σ) (fresh : Shape T σ Nat) (earlier : Earlier (cells.push fresh)) :
    retries (cells.push fresh) = cells.retries ++ (fresh.map cells.constantAt?).tries := by
  obtain ⟨before, below⟩ := earlier_of_push cells fresh earlier
  have kept (shape : Shape T σ Nat) (inside : ∀ child ∈ shape.children, child < cells.size) :
      shape.map (constantAt? (cells.push fresh)) = shape.map cells.constantAt? :=
    Shape.map_congr _ _ shape fun child isChild => constant_push_old cells fresh child (inside child isChild)
  rw [retries, retries, Array.toList_push, List.flatMap_append, List.flatMap_singleton, kept fresh below]
  congr 1
  apply List.flatMap_congr
  intro shape member
  obtain ⟨index, read⟩ := Array.mem_iff_getElem?.mp (Array.mem_toList_iff.mp member)
  rw [kept shape fun child isChild =>
    Nat.lt_trans (before index shape read child isChild) (read_bound cells index shape read)]

theorem retries_borrowed (cells : Cells T σ) (use : Borrowed T σ × List T) (member : use ∈ cells.retries) :
    cells.Borrows use.1 := by
  obtain ⟨shape, isEntry, tried⟩ := List.mem_flatMap.mp member
  obtain ⟨index, read⟩ := Array.mem_iff_getElem?.mp (Array.mem_toList_iff.mp isEntry)
  refine ⟨index, shape, read, ?_⟩
  cases shape with
  | member source =>
      simp only [Shape.map, Shape.tries] at tried
      split at tried <;> simp_all [Shape.borrowed?]
  | call routine args span =>
      simp only [Shape.map, Shape.tries] at tried
      split at tried
      · split at tried <;> simp_all [Shape.borrowed?]
      · simp at tried
  | _ => simp [Shape.map, Shape.tries] at tried

end Cells

namespace Pass

variable [Numeric T]

theorem carry_all_retries (cells : Cells T σ) (host : σ) (normal : cells.Normal) :
    (carryAll cells host).2 = cells.retries.performed host := by
  induction cells using Cells.push_induction with
  | empty => rfl
  | push cells fresh ih =>
      obtain ⟨before, below, -, -⟩ := Cells.normal_of_push cells fresh normal
      have idle := carry_all_idle cells host before
      have same : fresh.map (carryAll cells host).1.placeOf = fresh :=
        Shape.map_same _ fresh fun child isChild => idle.place child (below child isChild)
      rw [carry_all_push, carry_after, same, idle.kept, ih before, Cells.retries_push cells fresh normal.earlier,
        Uses.performed_append]

end Pass

theorem Expr.Settled.graph (e : Expr T σ) (settled : e.Settled) : (Graph.ofExpr e).cells.EarlySettled := by
  have within : e.Every (Shape.Within (fun borrowed => borrowed.isEarly = true → borrowed.Settled) fun _ _ => True) :=
    Expr.every_imp _ _ (fun _ here => ⟨here, fun _ _ _ => trivial⟩) e settled
  exact (Graph.of_expr_written _ _ e within).sound.allowed

namespace Graph

variable [Numeric T] [SymmetricSame T]

theorem optimize_after (graph : Graph T σ) (host : σ) (earlier : graph.cells.Earlier)
    (settled : graph.cells.EarlySettled) :
    graph.optimize.run host = (((graph.passed host).1, graph.expectedReports host),
      Uses.performed (if (graph.passed host).2.rewrites = 0 then [] else (graph.passed host).1.cells.retries)
        (Pass.carryAll graph.cells host).2) := by
  obtain ⟨after, loop, run⟩ := optimize_loops graph host earlier settled
  rw [run]
  refine loop_unique graph _ _ host _ _ _ _ loop ?_
  have after (graph : Graph T σ) (host : σ) : (graph.pass.run host).2 = (Pass.carryAll graph.cells host).2 := rfl
  unfold expectedReports
  by_cases quiet : (graph.passed host).2.rewrites = 0
  · have last := Loop.last graph host quiet
    simp only [quiet, if_true]
    rwa [after] at last
  · have normal := passed_normal graph host earlier settled
    have second := Loop.again graph _ host _ _ quiet (normal_loop _ (graph.pass.run host).2 normal)
    simp only [quiet, if_false]
    rwa [after, after, Pass.carry_all_retries _ _ normal.normal] at second

end Graph

end Formula
