import Formula.Numeric.Decimal
import Formula.Numeric.Float
import Formula.Numeric.Integer
import Formula.Proofs.Graph.Normal

set_option autoImplicit false

namespace Formula

variable {T σ : Type} [Numeric T]

namespace Pass

structure Placed (old : Cells T σ) (pass : Pass T σ) : Prop where
  normal : pass.cells.Normal
  size : pass.places.size = old.size
  bound : ∀ index, index < old.size → pass.placeOf index < pass.cells.size
  borrowed : ∀ borrowed, pass.cells.Borrows borrowed → old.Borrows borrowed

omit [Numeric T] in
theorem place_old (pass next : Pass T σ) (place index : Nat) (placed : next.places = pass.places.push place)
    (bound : index < pass.places.size) : next.placeOf index = pass.placeOf index := by
  simp [placeOf, placed, Array.getD_eq_getD_getElem?, Array.getElem?_push, Nat.ne_of_lt bound]

omit [Numeric T] in
theorem place_new (pass next : Pass T σ) (place : Nat) (placed : next.places = pass.places.push place) :
    next.placeOf pass.places.size = place := by
  rw [placeOf, placed, Array.getD_eq_getD_getElem?, Array.getElem?_push_size]
  rfl

omit [Numeric T] in
theorem early_settled_push (cells : Cells T σ) (fresh : Shape T σ Nat)
    (settled : Cells.EarlySettled (cells.push fresh)) :
    cells.EarlySettled ∧
      ∀ borrowed, fresh.borrowed? = some borrowed → borrowed.isEarly = true → borrowed.Settled :=
  ⟨fun borrowed uses => settled borrowed ((Cells.borrows_push cells fresh borrowed).mpr (.inl uses)),
    fun borrowed uses => settled borrowed ((Cells.borrows_push cells fresh borrowed).mpr (.inr uses))⟩

theorem carry_placed [SymmetricSame T] (old : Cells T σ) (fresh : Shape T σ Nat) (pass : Pass T σ) (host : σ)
    (placed : pass.Placed old) (below : ∀ child ∈ fresh.children, child < old.size)
    (settled : ∀ borrowed, fresh.borrowed? = some borrowed → borrowed.isEarly = true → borrowed.Settled) :
    (pass.carry fresh host).1.Placed (old.push fresh) := by
  obtain ⟨place, places, carried⟩ := carry_carried pass fresh host
  have inside : ∀ child ∈ (fresh.map pass.placeOf).children, child < pass.cells.size := by
    intro child isChild
    rw [Shape.children_map] at isChild
    obtain ⟨oldChild, isOldChild, rfl⟩ := List.mem_map.mp isChild
    exact placed.bound oldChild (below oldChild isOldChild)
  have uses : ∀ borrowed, (fresh.map pass.placeOf).borrowed? = some borrowed →
      borrowed.isEarly = true → borrowed.Settled := by
    rw [Shape.borrowed_map]
    exact settled
  obtain ⟨normal, here⟩ := Cells.carried_normal _ _ _ _ place placed.normal inside uses carried
  have grown := Cells.carried_extends _ _ _ _ _ carried
  refine ⟨normal, ?_, ?_, ?_⟩
  · rw [places, Array.size_push, Array.size_push, placed.size]
  · intro index bound
    rw [Array.size_push, ← placed.size] at bound
    by_cases last : index = pass.places.size
    · rw [last, place_new pass _ place places]
      exact here
    · have older : index < pass.places.size := by omega
      rw [place_old pass _ place index places older]
      exact Nat.lt_of_lt_of_le (placed.bound index (placed.size ▸ older)) grown.size
  · intro borrowed borrows
    apply (Cells.borrows_push old fresh borrowed).mpr
    rcases Cells.carried_borrows _ _ _ _ _ carried borrowed borrows with known | new
    · exact .inl (placed.borrowed borrowed known)
    · rw [Shape.borrowed_map] at new
      exact .inr new

theorem carry_all_placed [SymmetricSame T] (cells : Cells T σ) (host : σ) (earlier : cells.Earlier)
    (settled : cells.EarlySettled) : (carryAll cells host).1.Placed cells := by
  induction cells using Cells.push_induction with
  | empty => exact ⟨Cells.normal_empty, rfl, by simp, fun _ borrows => borrows⟩
  | push cells fresh ih =>
      obtain ⟨before, below⟩ := Cells.earlier_of_push cells fresh earlier
      obtain ⟨oldSettled, freshSettled⟩ := early_settled_push cells fresh settled
      rw [carry_all_push]
      exact carry_placed cells fresh _ _ (ih before oldSettled) below freshSettled

structure Idle (cells : Cells T σ) (pass : Pass T σ) : Prop where
  kept : pass.cells = cells
  size : pass.places.size = cells.size
  place : ∀ index, index < cells.size → pass.placeOf index = index
  report : pass.report = ⟨0, 0, 0⟩

theorem carry_idle (cells : Cells T σ) (fresh : Shape T σ Nat) (pass : Pass T σ) (host : σ)
    (normal : Cells.Normal (cells.push fresh)) (idle : pass.Idle cells) :
    (pass.carry fresh host).1.Idle (cells.push fresh) := by
  obtain ⟨-, below, irreducible, new⟩ := Cells.normal_of_push cells fresh normal
  have same : fresh.map pass.placeOf = fresh :=
    Shape.map_same _ fresh fun child isChild => idle.place child (below child isChild)
  have absent : pass.cells.find? fresh = none := by
    rw [idle.kept, Cells.find_none]
    exact new
  have carried : (pass.carry fresh host).1 =
      { pass with
        cells := pass.cells.push fresh
        sizes := pass.sizes.push (pass.sizeOf fresh)
        places := pass.places.push pass.cells.size } := by
    rw [carry_decided, same, idle.kept, Rewrite.irreducible_undecided cells host fresh irreducible, share, absent,
      idle.kept]
  have places : (pass.carry fresh host).1.places = pass.places.push pass.cells.size := by rw [carried]
  refine ⟨by rw [carried, idle.kept], by rw [places, Array.size_push, Array.size_push, idle.size], ?_, ?_⟩
  · intro index bound
    rw [Array.size_push] at bound
    by_cases last : index = cells.size
    · rw [last, ← idle.size, place_new pass _ _ places, idle.kept, idle.size]
    · have older : index < cells.size := by omega
      rw [place_old pass _ _ index places (idle.size ▸ older)]
      exact idle.place index older
  · rw [carried]
    exact idle.report

theorem carry_all_idle (cells : Cells T σ) (host : σ) (normal : cells.Normal) :
    (carryAll cells host).1.Idle cells := by
  induction cells using Cells.push_induction with
  | empty => exact ⟨rfl, rfl, by simp, rfl⟩
  | push cells fresh ih =>
      rw [carry_all_push]
      exact carry_idle cells fresh _ _ normal (ih (Cells.normal_of_push cells fresh normal).1)

end Pass

namespace Graph

-- The table is in normal form and holds what lies below the root, in the order of the first visit.
structure Normal (graph : Graph T σ) : Prop where
  normal : graph.cells.Normal
  numbered : graph.cells.Numbered

def passed (graph : Graph T σ) (host : σ) : Graph T σ × PassReport := (graph.pass.run host).1

def optimized (graph : Graph T σ) (host : σ) : Graph T σ × List PassReport := (graph.optimize.run host).1

theorem passed_carried (graph : Graph T σ) (host : σ)
    (size : (Pass.carryAll graph.cells host).1.places.size = graph.cells.size) :
    graph.passed host =
      (ofCells (Pass.carryAll graph.cells host).1.cells
        ((Pass.carryAll graph.cells host).1.placeOf graph.cells.top), (Pass.carryAll graph.cells host).1.report) := by
  have last : (Pass.carryAll graph.cells host).1.places.back?.getD 0 =
      (Pass.carryAll graph.cells host).1.placeOf graph.cells.top := by
    rw [Array.back?, size, Pass.placeOf, Array.getD_eq_getD_getElem?]
    rfl
  rw [← last]
  rfl

omit [Numeric T] in
theorem numbered_empty : Cells.Numbered (#[] : Cells T σ) := rfl

theorem passed_idle (graph : Graph T σ) (host : σ) (normal : graph.Normal) :
    graph.passed host = (graph, ⟨0, 0, 0⟩) := by
  have idle := Pass.carry_all_idle graph.cells host normal.normal
  have root : (Pass.carryAll graph.cells host).1.placeOf graph.cells.top = graph.cells.top := by
    by_cases empty : graph.cells.size = 0
    · have nothing : (Pass.carryAll graph.cells host).1.places.size = 0 := idle.size.trans empty
      simp [Pass.placeOf, Array.getD_eq_getD_getElem?, nothing, Cells.top, empty]
    · exact idle.place _ (by rw [Cells.top]; omega)
  rw [passed_carried graph host idle.size, idle.kept, root, idle.report, ofCells, normal.numbered]

theorem empty_normal (graph : Graph T σ) (empty : graph.cells = #[]) : graph.Normal :=
  ⟨empty ▸ Cells.normal_empty, empty ▸ numbered_empty⟩

theorem passed_cells [SymmetricSame T] (graph : Graph T σ) (host : σ) (earlier : graph.cells.Earlier)
    (settled : graph.cells.EarlySettled) :
    (graph.passed host).1 = graph ∧ graph.cells = #[] ∨
      graph.cells.top < graph.cells.size ∧
        (graph.passed host).1 = ofCells (Pass.carryAll graph.cells host).1.cells
          ((Pass.carryAll graph.cells host).1.placeOf graph.cells.top) := by
  by_cases empty : graph.cells = #[]
  · exact .inl ⟨congrArg Prod.fst (passed_idle graph host (empty_normal graph empty)), empty⟩
  · have placed := Pass.carry_all_placed graph.cells host earlier settled
    exact .inr ⟨Cells.top_bound graph.cells empty, congrArg Prod.fst (passed_carried graph host placed.size)⟩

theorem passed_normal [SymmetricSame T] (graph : Graph T σ) (host : σ) (earlier : graph.cells.Earlier)
    (settled : graph.cells.EarlySettled) : (graph.passed host).1.Normal := by
  rcases passed_cells graph host earlier settled with ⟨same, empty⟩ | ⟨inside, passed⟩
  · rw [same]
    exact empty_normal graph empty
  · have placed := Pass.carry_all_placed graph.cells host earlier settled
    have root := placed.bound graph.cells.top inside
    rw [passed]
    exact ⟨Cells.reachable_normal _ placed.normal _ root, Cells.reachable_numbered _ placed.normal.earlier _ root⟩

theorem optimize_within_run (fuel : Nat) (graph : Graph T σ) (host : σ) :
    (graph.optimizeWithin (fuel + 1)).run host =
      let first := graph.pass.run host
      if first.1.2.rewrites = 0 then ((first.1.1, [first.1.2]), first.2)
      else
        let rest := (optimizeWithin fuel first.1.1).run first.2
        ((rest.1.1, first.1.2 :: rest.1.2), rest.2) := by
  rw [optimizeWithin, StateT.run_bind]
  generalize graph.pass.run host = outcome
  obtain ⟨⟨next, report⟩, after⟩ := outcome
  change (if report.rewrites = 0 then _ else _ : StateM σ (Graph T σ × List PassReport)).run after = _
  by_cases done : report.rewrites = 0
  · simp only [done, if_true]
    rfl
  · simp only [done, if_false]
    rfl

theorem optimize_within_succ (fuel : Nat) (graph : Graph T σ) (host : σ) :
    ((graph.optimizeWithin (fuel + 1)).run host).1 =
      if (graph.passed host).2.rewrites = 0 then ((graph.passed host).1, [(graph.passed host).2])
      else
        let rest := ((optimizeWithin fuel (graph.passed host).1).run (graph.pass.run host).2).1
        (rest.1, (graph.passed host).2 :: rest.2) := by
  rw [optimize_within_run]
  exact apply_ite Prod.fst _ _ _

theorem optimize_within_normal (fuel : Nat) (graph : Graph T σ) (host : σ) (normal : graph.Normal) :
    ((graph.optimizeWithin (fuel + 1)).run host).1 = (graph, [⟨0, 0, 0⟩]) := by
  rw [optimize_within_succ, passed_idle graph host normal]
  rfl

omit [Numeric T] in
theorem count_positive (graph : Graph T σ) (earlier : graph.cells.Earlier) (some : graph.cells ≠ #[]) :
    0 < graph.count := by
  obtain ⟨shape, read⟩ := Cells.read_exists graph.cells graph.cells.top (Cells.top_bound graph.cells some)
  rw [count, fold_top, Cells.worth_read _ _ graph.cells earlier _ shape read, Shape.count]
  omega

theorem optimized_passed [SymmetricSame T] (graph : Graph T σ) (host : σ) (earlier : graph.cells.Earlier)
    (settled : graph.cells.EarlySettled) : (graph.optimized host).1 = (graph.passed host).1 := by
  have normal := passed_normal graph host earlier settled
  unfold optimized optimize
  rw [optimize_within_succ]
  split
  · rfl
  · rename_i rewrote
    by_cases empty : graph.cells = #[]
    · rw [passed_idle graph host (empty_normal graph empty)] at rewrote
      exact absurd rfl rewrote
    · have positive := count_positive graph earlier empty
      obtain ⟨fuel, enough⟩ : ∃ fuel, 2 * graph.count = fuel + 1 := ⟨2 * graph.count - 1, by omega⟩
      simp only [enough]
      rw [optimize_within_normal fuel _ _ normal]

theorem optimized_normal [SymmetricSame T] (graph : Graph T σ) (host : σ) (earlier : graph.cells.Earlier)
    (settled : graph.cells.EarlySettled) : (graph.optimized host).1.Normal := by
  rw [optimized_passed graph host earlier settled]
  exact passed_normal graph host earlier settled

end Graph

namespace Cells

-- Two entries unfold to equal trees: they say the same and so do their children, whatever the
-- places in the text that they come from.
inductive Equal (cells : Cells T σ) : Nat → Nat → Prop
  | constant (i j : Nat) (a b : T) (name other : Option String) (left : cells[i]? = some (.constant a name))
      (right : cells[j]? = some (.constant b other)) (same : Numeric.same a b = true) : Equal cells i j
  | parameter (i j index : Nat) (left : cells[i]? = some (.parameter index))
      (right : cells[j]? = some (.parameter index)) : Equal cells i j
  | member (i j : Nat) (a b : Member T σ) (left : cells[i]? = some (.member a))
      (right : cells[j]? = some (.member b)) (same : a.identical b = true) : Equal cells i j
  | unary (i j : Nat) (op : UnaryOperator) (a b : Nat) (span other : Span) (left : cells[i]? = some (.unary op a span))
      (right : cells[j]? = some (.unary op b other)) (operand : Equal cells a b) : Equal cells i j
  | binary (i j : Nat) (op : BinaryOperator) (a b c d : Nat) (span other : Span)
      (left : cells[i]? = some (.binary op a b span)) (right : cells[j]? = some (.binary op c d other))
      (first : Equal cells a c) (second : Equal cells b d) : Equal cells i j
  | convert (i j : Nat) (conversion : Conversion) (a b : Nat) (span other : Span)
      (left : cells[i]? = some (.convert conversion a span)) (right : cells[j]? = some (.convert conversion b other))
      (operand : Equal cells a b) : Equal cells i j
  | call (i j : Nat) (f g : Routine T σ) (args others : List Nat) (span other : Span)
      (left : cells[i]? = some (.call f args span)) (right : cells[j]? = some (.call g others other))
      (same : f.identical g = true) (count : args.length = others.length)
      (each : ∀ pair ∈ args.zip others, Equal cells pair.1 pair.2) : Equal cells i j
  | conditional (i j a b c d e f : Nat) (left : cells[i]? = some (.conditional a b c))
      (right : cells[j]? = some (.conditional d e f)) (condition : Equal cells a d) (accepted : Equal cells b e)
      (rejected : Equal cells c f) : Equal cells i j

omit [Numeric T] in
theorem zip_same (xs ys : List Nat) (count : xs.length = ys.length)
    (each : ∀ pair ∈ xs.zip ys, pair.1 = pair.2) : xs = ys := by
  induction xs generalizing ys with
  | nil => exact (List.length_eq_zero_iff.mp count.symm).symm
  | cons x rest ih =>
      cases ys with
      | nil => simp at count
      | cons y others =>
          have first : x = y := each (x, y) (by simp)
          have later := ih others (Nat.succ.inj count) fun pair member => each pair (by simp [member])
          rw [first, later]

theorem equal_same (cells : Cells T σ) (normal : cells.Normal) (i j : Nat) (equal : cells.Equal i j) : i = j := by
  induction equal with
  | constant i j a b name other left right same =>
      exact normal.apart i j _ _ left right same
  | parameter i j index left right => exact normal.apart i j _ _ left right (by simp [alike])
  | member i j a b left right same => exact normal.apart i j _ _ left right same
  | unary i j op a b span other left right _ operand =>
      exact normal.apart i j _ _ left right (by simp [alike, operand])
  | binary i j op a b c d span other left right _ _ first second =>
      exact normal.apart i j _ _ left right (by simp [alike, first, second])
  | convert i j conversion a b span other left right _ operand =>
      exact normal.apart i j _ _ left right (by simp [alike, operand])
  | call i j f g args others span other left right same count _ each =>
      exact normal.apart i j _ _ left right (by simp [alike, same, zip_same args others count each])
  | conditional i j a b c d e f left right _ _ _ condition accepted rejected =>
      exact normal.apart i j _ _ left right (by simp [alike, condition, accepted, rejected])

end Cells

instance (s : Signedness) : SymmetricSame (Integer s) where
  same_symm a b same := by simpa [Numeric.same, eq_comm] using same

instance : SymmetricSame Rat where
  same_symm a b same := by simpa [Numeric.same, eq_comm] using same

instance : SymmetricSame Float where
  same_symm a b same := by simpa [Numeric.same, eq_comm] using same

namespace Graph

-- In an optimized graph no rule applies to any node and equal nodes are one node, so optimizing it
-- again takes one pass that changes nothing.
theorem optimize_reaches_normal_form [SymmetricSame T] (graph : Graph T σ) (earlier : graph.cells.Earlier)
    (settled : graph.cells.EarlySettled) (before : σ) :
    (∀ (index : Nat) (shape : Shape T σ Nat), (graph.optimized before).1.cells[index]? = some shape →
      ∀ host replacement, ¬ Rewrite.Rule (graph.optimized before).1.cells host shape replacement) ∧
    (∀ i j, Cells.Equal (graph.optimized before).1.cells i j → i = j) ∧
    ∀ now, ((graph.optimized before).1.optimized now).1 = (graph.optimized before).1 ∧
      OptimizeStats.ofReports ((graph.optimized before).1.optimized now).2 = ⟨1, 0, 0⟩ := by
  have normal := optimized_normal graph before earlier settled
  refine ⟨normal.normal.irreducible, Cells.equal_same _ normal.normal, fun now => ?_⟩
  have again : (graph.optimized before).1.optimized now = ((graph.optimized before).1, [⟨0, 0, 0⟩]) :=
    optimize_within_normal _ _ now normal
  rw [again]
  exact ⟨rfl, rfl⟩

def predecessor : Routine (Integer .signed) Nat :=
  ⟨.function, "predecessor", 1, fun args => Run.ofExcept (Integer.binary .sub (args.headD Numeric.zero) Numeric.one), 0⟩

-- `x * x + x * x * predecessor(2)`, with one node for each of its operations.
def squares : Graph (Integer .signed) Nat :=
  ⟨(((((((#[] : Cells (Integer .signed) Nat).push (.parameter 0)).push (.binary .mul 0 0 ⟨2, 3⟩)).push
    (.binary .mul 0 0 ⟨10, 11⟩)).push (.constant (Integer.ofBits .signed 2) none)).push
    (.call predecessor [3] ⟨16, 27⟩)).push (.binary .mul 2 4 ⟨14, 15⟩)).push (.binary .add 1 5 ⟨6, 7⟩)⟩

theorem squares_normal_form :
    squares.cells.Earlier ∧ squares.cells.EarlySettled ∧
      (∀ i j, Cells.Equal (squares.optimized 0).1.cells i j → i = j) ∧
      ((squares.optimized 0).1.optimized 1).1 = (squares.optimized 0).1 := by
  have earlier : squares.cells.Earlier := by
    iterate 7 refine Cells.earlier_push _ _ ?_ (by simp [Shape.children])
    exact Cells.earlier_empty
  have settled : squares.cells.EarlySettled := by
    intro borrowed uses _
    simp only [squares, Cells.borrows_push, Shape.borrowed?, reduceCtorEq, or_false, Option.some.injEq] at uses
    rcases uses with ⟨index, shape, read, -⟩ | rfl
    · simp at read
    · intro args before now
      simp only [Borrowed.use, Routine.call]
      split <;> rfl
  obtain ⟨-, shared, again⟩ := optimize_reaches_normal_form squares earlier settled 0
  exact ⟨earlier, settled, shared, (again 1).1⟩

end Graph

end Formula
