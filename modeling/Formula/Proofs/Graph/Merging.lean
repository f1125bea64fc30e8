import Formula.Proofs.Graph.Compiled
import Formula.Proofs.Graph.Parallel

set_option autoImplicit false

namespace Formula

variable {T σ ι κ : Type}

namespace Shape

-- The node as it would stand at this place, if it is one that stands anywhere.
def moved (place : Option Span) (shape : Shape T σ ι) : Shape T σ ι :=
  match place, shape with
  | some span, .unary op operand _ => .unary op operand span
  | some span, .binary op left right _ => .binary op left right span
  | some span, .convert conversion operand _ => .convert conversion operand span
  | some span, .call routine args _ => .call routine args span
  | _, shape => shape

theorem moved_map (f : ι → κ) (place : Option Span) (shape : Shape T σ ι) :
    (shape.moved place).map f = (shape.map f).moved place := by
  cases place <;> cases shape <;> rfl

theorem moved_children (place : Option Span) (shape : Shape T σ ι) : (shape.moved place).children = shape.children := by
  cases place <;> cases shape <;> rfl

theorem moved_borrowed (place : Option Span) (shape : Shape T σ ι) : (shape.moved place).borrowed? = shape.borrowed? := by
  cases place <;> cases shape <;> rfl

theorem moved_span (place span : Span) (shape : Shape T σ ι) (stands : (shape.moved (some place)).span? = some span) :
    span = place := by
  cases shape <;> simp_all [moved, span?]

theorem span_map (f : ι → κ) (shape : Shape T σ ι) : (shape.map f).span? = shape.span? := by
  cases shape <;> rfl

theorem moved_parallel (place : Option Span) (shape : Shape T σ ι) :
    shape.Parallel Eq (fun _ _ => True) (shape.moved place) := by
  cases place with
  | none => exact parallel_self Eq _ shape (fun _ _ => rfl) fun _ => trivial
  | some span =>
      cases shape with
      | constant value name => exact .constant value name name
      | parameter index => exact .parameter index
      | member source => exact .member source source rfl
      | unary op operand old => exact .unary op operand old span trivial
      | binary op left right old => exact .binary op left right old span trivial
      | convert conversion operand old => exact .convert conversion operand old span trivial
      | call routine args old => exact .call routine routine args old span rfl trivial
      | conditional condition accepted rejected => exact .conditional condition accepted rejected

end Shape

namespace Cells

def relocated (cells : Cells T σ) (first : Nat → Nat) : Cells T σ :=
  cells.mapIdx fun index shape => shape.moved (cells[first index]?.bind Shape.span?)

theorem relocated_read (cells : Cells T σ) (first : Nat → Nat) (index : Nat) :
    (cells.relocated first)[index]? =
      cells[index]?.map fun shape => shape.moved (cells[first index]?.bind Shape.span?) :=
  Array.getElem?_mapIdx ..

theorem relocated_earlier (cells : Cells T σ) (earlier : cells.Earlier) (first : Nat → Nat) :
    (cells.relocated first).Earlier := by
  intro index shape read
  rw [relocated_read] at read
  obtain ⟨original, found, rfl⟩ := Option.map_eq_some_iff.mp read
  rw [Shape.moved_children]
  exact earlier index original found

variable [Numeric T]

-- Each entry has the first of the entries that are equal to it.
def Foremost (cells : Cells T σ) (first : Nat → Nat) : Prop :=
  ∀ index, index < cells.size → cells.Equal (first index) index ∧ ∀ other, cells.Equal other index → first index ≤ other

theorem alike_moved (place : Option Span) (a b : Shape T σ Nat) : alike (a.moved place) b = alike a b := by
  cases place <;> cases a <;> cases b <;> rfl

section

variable [Discerning T]

theorem alike_refl (a : Shape T σ Nat) : alike a a = true := by
  cases a <;> simp [alike, Routine.identical, Member.identical]
  exact (Discerning.same_iff _ _).mpr rfl

theorem alike_trans (a b c : Shape T σ Nat) (first : alike a b = true) (second : alike b c = true) :
    alike a c = true := by
  cases a <;> cases b <;> simp only [alike, Bool.false_eq_true] at first <;> cases c <;>
    simp only [alike, Bool.false_eq_true] at second <;>
    simp_all [alike, Routine.identical, Member.identical, Discerning.same_iff]

theorem alike_held (cells : Cells T σ) (place : Nat) (shape : Shape T σ Nat) (held : cells.Holds place shape) :
    ∃ entry, cells[place]? = some entry ∧ alike shape entry = true := by
  obtain ⟨entry, read, rfl | like⟩ := held
  · exact ⟨entry, read, alike_refl entry⟩
  · exact ⟨entry, read, like⟩

end

end Cells

namespace Pass

variable [Numeric T]

-- A pass that has carried a table over and only merged: every entry of the new table is the first one that came to
-- its place, and the others that came there are alike.
structure Merged (old : Cells T σ) (pass : Pass T σ) : Prop where
  held : ∀ (index : Nat) (shape : Shape T σ Nat), old[index]? = some shape →
    pass.cells.Holds (pass.placeOf index) (shape.map pass.placeOf)
  origin : ∀ (place : Nat) (entry : Shape T σ Nat), pass.cells[place]? = some entry →
    ∃ (index : Nat) (shape : Shape T σ Nat), old[index]? = some shape ∧ pass.placeOf index = place ∧
      entry = shape.map pass.placeOf ∧ ∀ other < index, pass.placeOf other ≠ place
  apart : ∀ (i j : Nat) (a b : Shape T σ Nat), pass.cells[i]? = some a → pass.cells[j]? = some b →
    Cells.alike a b = true → i = j

theorem share_rewrites (pass : Pass T σ) (shape : Shape T σ Nat) :
    (pass.share shape).report.rewrites = pass.report.rewrites := by
  unfold share
  split <;> rfl

theorem carry_shares (pass : Pass T σ) (shape : Shape T σ Nat) (host : σ)
    (quiet : (pass.carry shape host).1.report.rewrites = 0) :
    (pass.carry shape host).1 = pass.share (shape.map pass.placeOf) ∧ pass.report.rewrites = 0 := by
  rw [carry_decided] at quiet ⊢
  cases decision : Rewrite.decided pass.cells (shape.map pass.placeOf) host with
  | none =>
      rw [decision] at quiet
      exact ⟨rfl, (share_rewrites pass _).symm.trans quiet⟩
  | some replacement =>
      rw [decision] at quiet
      cases replacement with
      | existing index => exact absurd quiet (Nat.succ_ne_zero _)
      | fresh node => exact absurd ((share_rewrites _ node).symm.trans quiet) (Nat.succ_ne_zero _)

theorem share_merged [SymmetricSame T] (old : Cells T σ) (fresh : Shape T σ Nat) (pass : Pass T σ)
    (earlier : old.Earlier) (kept : pass.Kept (fun _ => True) old) (merged : pass.Merged old)
    (below : ∀ child ∈ fresh.children, child < old.size) :
    (pass.share (fresh.map pass.placeOf)).Merged (old.push fresh) := by
  obtain ⟨place, places, shared⟩ := share_shared pass (fresh.map pass.placeOf)
  have grown := Cells.shared_extends _ _ _ _ shared
  generalize pass.share (fresh.map pass.placeOf) = next at places shared grown ⊢
  have stays (index : Nat) (bound : index < old.size) : next.placeOf index = pass.placeOf index :=
    place_old pass next place index places (kept.size ▸ bound)
  have goes : next.placeOf old.size = place := kept.size ▸ place_new pass next place places
  have moved (shape : Shape T σ Nat) (inside : ∀ child ∈ shape.children, child < old.size) :
      shape.map next.placeOf = shape.map pass.placeOf :=
    Shape.map_congr _ _ shape fun child isChild => stays child (inside child isChild)
  have inside (index : Nat) (shape : Shape T σ Nat) (read : old[index]? = some shape) :
      ∀ child ∈ shape.children, child < old.size := fun child isChild =>
    Nat.lt_trans (earlier index shape read child isChild) (Cells.read_bound old index shape read)
  -- What was the first to come to an old place still is.
  have settled (here : Nat) (entry : Shape T σ Nat) (read : pass.cells[here]? = some entry) :
      ∃ (index : Nat) (shape : Shape T σ Nat), (old.push fresh)[index]? = some shape ∧ next.placeOf index = here ∧
        entry = shape.map next.placeOf ∧ ∀ other < index, next.placeOf other ≠ here := by
    obtain ⟨index, shape, found, came, same, first⟩ := merged.origin here entry read
    have bound := Cells.read_bound old index shape found
    refine ⟨index, shape, (Cells.read_push_old old index fresh bound).trans found, (stays index bound).trans came,
      same.trans (moved shape (inside index shape found)).symm, fun other less => ?_⟩
    rw [stays other (Nat.lt_trans less bound)]
    exact first other less
  refine ⟨?_, ?_, ?_⟩
  · intro index shape read
    rcases Cells.read_push old index fresh shape read with isOld | ⟨rfl, rfl⟩
    · rw [moved shape (inside index shape isOld), stays index (Cells.read_bound old index shape isOld)]
      exact Cells.holds_extends _ _ grown _ _ (merged.held index shape isOld)
    · rw [moved shape below, goes]
      exact Cells.shared_holds _ _ _ _ shared
  · intro here entry read
    generalize next.cells = more at shared read
    cases shared with
    | found _ same found like => exact settled here entry read
    | pushed new =>
        rcases Cells.read_push pass.cells here _ entry read with isOld | ⟨rfl, rfl⟩
        · exact settled here entry isOld
        · refine ⟨old.size, fresh, Array.getElem?_push_size, goes, (moved fresh below).symm, fun other less => ?_⟩
          rw [stays other less]
          exact Nat.ne_of_lt (kept.bound other less)
  · intro i j a b readA readB like
    generalize next.cells = more at shared readA readB
    cases shared with
    | found _ same found alike => exact merged.apart i j a b readA readB like
    | pushed new =>
        rcases Cells.read_push pass.cells i _ a readA with oldA | ⟨rfl, rfl⟩
        · rcases Cells.read_push pass.cells j _ b readB with oldB | ⟨rfl, rfl⟩
          · exact merged.apart i j a b oldA oldB like
          · exact absurd (Cells.alike_symm a _ like) (by simp [new i a oldA])
        · rcases Cells.read_push pass.cells j _ b readB with oldB | ⟨rfl, rfl⟩
          · exact absurd like (by simp [new j b oldB])
          · rfl

theorem carry_all_merged [SymmetricSame T] (cells : Cells T σ) (host : σ) (earlier : cells.Earlier)
    (quiet : (carryAll cells host).1.report.rewrites = 0) : (carryAll cells host).1.Merged cells := by
  induction cells using Cells.push_induction with
  | empty =>
      have nothing : (carryAll (#[] : Cells T σ) host).1.cells = #[] := rfl
      exact ⟨by simp, by simp [nothing], by simp [nothing]⟩
  | push cells fresh ih =>
      obtain ⟨before, below⟩ := Cells.earlier_of_push cells fresh earlier
      rw [carry_all_push] at quiet ⊢
      obtain ⟨shares, still⟩ := carry_shares _ fresh _ quiet
      rw [shares]
      exact share_merged cells fresh _ before (carry_all_sound cells host before) (ih before still) below

section

variable [Discerning T] (old : Cells T σ) (pass : Pass T σ) (earlier : old.Earlier) (merged : pass.Merged old)
  (i j : Nat) (a b : Shape T σ Nat) (left : old[i]? = some a) (right : old[j]? = some b)

include merged left right

theorem merged_met (like : Cells.alike (a.map pass.placeOf) (b.map pass.placeOf) = true) :
    pass.placeOf i = pass.placeOf j := by
  obtain ⟨entry, readA, likeA⟩ := Cells.alike_held _ _ _ (merged.held i a left)
  obtain ⟨other, readB, likeB⟩ := Cells.alike_held _ _ _ (merged.held j b right)
  have met := Cells.alike_trans _ _ _ (Cells.alike_symm _ _ likeA) (Cells.alike_trans _ _ _ like likeB)
  exact merged.apart _ _ entry other readA readB met

theorem merged_alike (same : pass.placeOf i = pass.placeOf j) :
    Cells.alike (a.map pass.placeOf) (b.map pass.placeOf) = true := by
  obtain ⟨entry, readA, likeA⟩ := Cells.alike_held _ _ _ (merged.held i a left)
  obtain ⟨other, readB, likeB⟩ := Cells.alike_held _ _ _ (merged.held j b right)
  obtain rfl : entry = other := Option.some.inj (readA.symm.trans (same ▸ readB))
  exact Cells.alike_trans _ _ _ likeA (Cells.alike_symm _ _ likeB)

end

theorem zip_map_same (f : Nat → Nat) (xs ys : List Nat) :
    xs.map f = ys.map f ↔ xs.length = ys.length ∧ ∀ pair ∈ xs.zip ys, f pair.1 = f pair.2 := by
  induction xs generalizing ys with
  | nil => cases ys <;> simp
  | cons x rest ih =>
      cases ys with
      | nil => simp
      | cons y others => simp [ih, and_left_comm]

variable [Discerning T] (old : Cells T σ) (pass : Pass T σ) (merged : pass.Merged old)

include merged

theorem merged_equal (i j : Nat) (equal : old.Equal i j) : pass.placeOf i = pass.placeOf j := by
  induction equal with
  | constant i j a b name other left right same => exact merged_met old pass merged i j _ _ left right same
  | parameter i j index left right =>
      exact merged_met old pass merged i j _ _ left right (by simp [Shape.map, Cells.alike])
  | member i j a b left right same => exact merged_met old pass merged i j _ _ left right same
  | unary i j op a b span other left right operand ih =>
      exact merged_met old pass merged i j _ _ left right (by simp [Shape.map, Cells.alike, ih])
  | binary i j op a b c d span other left right first second ihFirst ihSecond =>
      exact merged_met old pass merged i j _ _ left right (by simp [Shape.map, Cells.alike, ihFirst, ihSecond])
  | convert i j conversion a b span other left right operand ih =>
      exact merged_met old pass merged i j _ _ left right (by simp [Shape.map, Cells.alike, ih])
  | call i j f g args others span other left right same count each ih =>
      have moved := (zip_map_same pass.placeOf args others).mpr ⟨count, ih⟩
      exact merged_met old pass merged i j _ _ left right (by simp [Shape.map, Cells.alike, same, moved])
  | conditional i j a b c d e f left right condition accepted rejected ihCondition ihAccepted ihRejected =>
      exact merged_met old pass merged i j _ _ left right
        (by simp [Shape.map, Cells.alike, ihCondition, ihAccepted, ihRejected])

theorem merged_place (earlier : old.Earlier) (i j : Nat) (bound : i < old.size) (other : j < old.size)
    (same : pass.placeOf i = pass.placeOf j) : old.Equal i j := by
  revert j
  apply Cells.entry_induction old earlier _ i bound
  intro i a left ih j inside same
  obtain ⟨b, right⟩ := Cells.read_exists old j inside
  have like := merged_alike old pass merged i j a b left right same
  have down (child met : Nat) (isChild : child ∈ a.children) (isMet : met ∈ b.children)
      (same : pass.placeOf child = pass.placeOf met) : old.Equal child met :=
    ih child isChild met (Nat.lt_trans (earlier j b right met isMet) inside) same
  cases a <;> cases b <;> simp only [Shape.map, Cells.alike, Bool.and_eq_true, decide_eq_true_eq, Bool.false_eq_true] at like
  case constant.constant => exact .constant i j _ _ _ _ left right like
  case parameter.parameter =>
    obtain rfl := like
    exact .parameter i j _ left right
  case member.member => exact .member i j _ _ left right like
  case unary.unary =>
    obtain ⟨rfl, operand⟩ := like
    exact .unary i j _ _ _ _ _ left right (down _ _ (by simp [Shape.children]) (by simp [Shape.children]) operand)
  case binary.binary =>
    obtain ⟨⟨rfl, first⟩, second⟩ := like
    exact .binary i j _ _ _ _ _ _ _ left right
      (down _ _ (by simp [Shape.children]) (by simp [Shape.children]) first)
      (down _ _ (by simp [Shape.children]) (by simp [Shape.children]) second)
  case convert.convert =>
    obtain ⟨rfl, operand⟩ := like
    exact .convert i j _ _ _ _ _ left right
      (down _ _ (by simp [Shape.children]) (by simp [Shape.children]) operand)
  case call.call f args _ g others _ =>
    obtain ⟨count, each⟩ := (zip_map_same pass.placeOf args others).mp like.2
    refine .call i j f g args others _ _ left right like.1 count fun pair member => ?_
    obtain ⟨isArg, isOther⟩ := List.of_mem_zip member
    exact down pair.1 pair.2 isArg isOther (each pair member)
  case conditional.conditional =>
    obtain ⟨⟨condition, accepted⟩, rejected⟩ := like
    exact .conditional i j _ _ _ _ _ _ left right
      (down _ _ (by simp [Shape.children]) (by simp [Shape.children]) condition)
      (down _ _ (by simp [Shape.children]) (by simp [Shape.children]) accepted)
      (down _ _ (by simp [Shape.children]) (by simp [Shape.children]) rejected)

theorem merged_first (kept : pass.Kept (fun _ => True) old) (earlier : old.Earlier) :
    ∃ first, old.Foremost first ∧ ∀ (index : Nat) (shape : Shape T σ Nat), old[index]? = some shape →
      ∃ original, old[first index]? = some original ∧
        pass.cells[pass.placeOf index]? = some (original.map pass.placeOf) := by
  have each (index : Nat) : ∃ origin, index < old.size → old.Equal origin index ∧
      (∀ other, old.Equal other index → origin ≤ other) ∧ ∃ original, old[origin]? = some original ∧
        pass.cells[pass.placeOf index]? = some (original.map pass.placeOf) := by
    by_cases inside : index < old.size
    · obtain ⟨entry, read⟩ := Cells.read_exists pass.cells _ (kept.bound index inside)
      obtain ⟨origin, original, found, came, rfl, foremost⟩ := merged.origin _ entry read
      refine ⟨origin, fun _ => ⟨?_, fun other equal => ?_, original, found, read⟩⟩
      · exact merged_place old pass merged earlier origin index (Cells.read_bound old origin original found) inside came
      · by_contra less
        exact foremost other (Nat.lt_of_not_le less) (merged_equal old pass merged other index equal)
    · exact ⟨0, fun bound => absurd bound inside⟩
  choose first properties using each
  refine ⟨first, fun index bound => ⟨(properties index bound).1, (properties index bound).2.1⟩, fun index shape read => ?_⟩
  exact (properties index (Cells.read_bound old index shape read)).2.2

end Pass

section

variable [Numeric T] [Discerning T]

theorem Pass.merged_relocated (old : Cells T σ) (pass : Pass T σ) (merged : pass.Merged old)
    (coherent : ∀ a b, old.Borrows a → old.Borrows b → a.identical b = true → a = b) (first : Nat → Nat)
    (foremost : ∀ (index : Nat) (shape : Shape T σ Nat), old[index]? = some shape →
      ∃ original, old[first index]? = some original ∧
        pass.cells[pass.placeOf index]? = some (original.map pass.placeOf))
    (index : Nat) (shape : Shape T σ Nat) (read : (old.relocated first)[index]? = some shape) :
    ∃ entry, pass.cells[pass.placeOf index]? = some entry ∧ (shape.map pass.placeOf).Parallel Eq Eq entry := by
  rw [Cells.relocated_read] at read
  obtain ⟨node, found, rfl⟩ := Option.map_eq_some_iff.mp read
  obtain ⟨original, there, placed⟩ := foremost index node found
  obtain ⟨entry, here, like⟩ := Cells.alike_held _ _ _ (merged.held index node found)
  obtain rfl : original.map pass.placeOf = entry := Option.some.inj (placed.symm.trans here)
  refine ⟨_, placed, ?_⟩
  rw [there, Option.bind_some, Shape.moved_map]
  refine Cells.alike_parallel Eq old.Borrows coherent _ _ (fun borrowed used => ?_) (fun borrowed used => ?_)
    ((Cells.alike_moved _ _ _).trans like) fun span place stands stood => ?_
  · rw [Shape.moved_borrowed, Shape.borrowed_map] at used
    exact ⟨index, node, found, used⟩
  · rw [Shape.borrowed_map] at used
    exact ⟨first index, original, there, used⟩
  · rw [Shape.span_map] at stood
    rw [stood] at stands
    exact Shape.moved_span place span _ stands

end

namespace Run

variable {α : Type}

theorem same_congruence : Congruence (fun α (action other : Run σ α) => action = other) Eq where
  result _ _ := rfl
  bind _ _ action other next later first rest := by
    obtain rfl := first
    obtain rfl : next = later := funext rest
    rfl
  locate _ span place action other located same := by rw [located, same]

def SameRoot (action other : Run σ α) : Prop :=
  ∀ state, (action.outcome state).mapError EvalError.root = (other.outcome state).mapError EvalError.root ∧
    action.after state = other.after state

theorem same_root_congruence : Congruence (fun α (action other : Run σ α) => SameRoot action other) fun _ _ => True where
  result _ _ _ := ⟨rfl, rfl⟩
  bind _ _ action other next later first rest := by
    intro state
    obtain ⟨same, kept⟩ := first state
    simp only [outcome_bind, after_bind, kept]
    generalize action.outcome state = left at same ⊢
    generalize other.outcome state = right at same ⊢
    cases left with
    | error error =>
        cases right with
        | error raised =>
            have root : error.root = raised.root := Except.error.inj same
            exact ⟨congrArg Except.error root, rfl⟩
        | ok value => exact absurd same (by simp [Except.mapError])
    | ok value =>
        cases right with
        | error raised => exact absurd same (by simp [Except.mapError])
        | ok found =>
            obtain rfl := Except.ok.inj same
            exact rest value _
  locate _ span place action other _ same := by
    intro state
    obtain ⟨same, kept⟩ := same state
    simp only [outcome, after, locate_run]
    refine ⟨?_, kept⟩
    change (Except.mapError _ (action.outcome state)).mapError _ = (Except.mapError _ (other.outcome state)).mapError _
    generalize action.outcome state = left at same ⊢
    generalize other.outcome state = right at same ⊢
    cases left <;> cases right <;> simp_all [Except.mapError, locate_root]

end Run

namespace Graph

variable [Numeric T]

def relocated (graph : Graph T σ) (first : Nat → Nat) : Graph T σ := ⟨graph.cells.relocated first⟩

omit [Numeric T] in
theorem relocated_fold {α : Type} (layer : Shape T σ α → α) (fallback : α) (graph : Graph T σ) (first : Nat → Nat) :
    (graph.relocated first).fold layer fallback = (graph.cells.relocated first).worth layer fallback graph.cells.top := by
  have size : (graph.cells.relocated first).size = graph.cells.size := Array.size_mapIdx
  rw [fold_top, Cells.top, Cells.top, ← size]
  rfl

theorem relocated_run (graph : Graph T σ) (earlier : graph.cells.Earlier) (rooted : graph.cells ≠ #[])
    (first : Nat → Nat) (inputs : List T) : Run.SameRoot (graph.run inputs) ((graph.relocated first).run inputs) := by
  rw [run, run, fold_top, relocated_fold]
  refine Cells.parallel_worth (fun α (action other : Run σ α) => Run.SameRoot action other) _ Run.same_root_congruence
    Eq ?_ graph.cells _ earlier (Cells.relocated_earlier _ earlier first) (fun index => index) ?_ _ _ inputs _
    (Cells.top_bound graph.cells rooted)
  · rintro borrowed _ rfl args
    exact fun _ => ⟨rfl, rfl⟩
  · intro index shape read
    rw [Shape.map_same _ shape fun _ _ => rfl, Cells.relocated_read, read]
    exact ⟨_, rfl, Shape.moved_parallel _ shape⟩

theorem merged_run [Discerning T] (graph : Graph T σ) (wellFormed : graph.WellFormed) (rooted : graph.cells ≠ #[])
    (host : σ) (quiet : (graph.passed host).2.rewrites = 0) :
    ∃ first, graph.cells.Foremost first ∧ (graph.passed host).1.run = (graph.relocated first).run := by
  have kept := Pass.carry_all_sound graph.cells host wellFormed.earlier
  rw [passed_carried graph host kept.size] at quiet ⊢
  have merged := Pass.carry_all_merged graph.cells host wellFormed.earlier quiet
  generalize (Pass.carryAll graph.cells host).1 = pass at kept merged
  obtain ⟨first, foremost, placed⟩ := Pass.merged_first graph.cells pass merged kept wellFormed.earlier
  refine ⟨first, foremost, ?_⟩
  have size : (graph.cells.relocated first).size = graph.cells.size := Array.size_mapIdx
  have inside := Cells.top_bound graph.cells rooted
  rw [run, run, Cells.fold_of_cells Shape.run _ pass.cells kept.earlier _ (kept.bound _ inside), relocated_fold]
  funext inputs
  refine (Cells.parallel_worth (fun α (action other : Run σ α) => action = other) Eq Run.same_congruence Eq ?_ _ _
    (Cells.relocated_earlier _ wellFormed.earlier first) kept.earlier pass.placeOf
    (Pass.merged_relocated graph.cells pass merged wellFormed.coherent first placed) _ _ inputs _ (size ▸ inside)).symm
  rintro borrowed _ rfl args
  rfl

theorem optimize_within_reports (fuel : Nat) (graph : Graph T σ) (host : σ) :
    0 < ((graph.optimizeWithin (fuel + 1)).run host).1.2.length := by
  rw [optimize_within_succ]
  split <;> simp

theorem optimized_once (graph : Graph T σ) (earlier : graph.cells.Earlier) (rooted : graph.cells ≠ #[]) (host : σ)
    (once : (graph.optimized host).2.length = 1) :
    (graph.passed host).2.rewrites = 0 ∧ (graph.optimized host).1 = (graph.passed host).1 := by
  have positive := count_positive graph earlier rooted
  obtain ⟨fuel, enough⟩ : ∃ fuel, 2 * graph.count = fuel + 1 := ⟨2 * graph.count - 1, by omega⟩
  unfold optimized optimize at once ⊢
  rw [optimize_within_succ, enough] at once ⊢
  by_cases done : (graph.passed host).2.rewrites = 0
  · rw [if_pos done]
    exact ⟨done, rfl⟩
  · rw [if_neg done] at once
    have more := optimize_within_reports fuel (graph.passed host).1 (graph.pass.run host).2
    simp only [List.length_cons] at once
    omega

end Graph

theorem OptimizeStats.passes_length (reports : List PassReport) : (OptimizeStats.ofReports reports).passes = reports.length := by
  induction reports with
  | nil => rfl
  | cons report rest ih => exact congrArg Nat.succ ih

def Compiled.relocated (compiled : Compiled T σ) (first : Nat → Nat) : Compiled T σ :=
  { compiled with graph := compiled.graph.relocated first }

theorem Compiled.call_same [Numeric T] (compiled other : Compiled T σ) (declared : compiled.parameters = other.parameters)
    (runs : compiled.graph.run = other.graph.run) : compiled.call = other.call := by
  funext inputs
  rw [call, call, declared, runs]

theorem Compiled.relocated_call [Numeric T] (compiled : Compiled T σ) (earlier : compiled.graph.cells.Earlier)
    (rooted : compiled.graph.cells ≠ #[]) (first : Nat → Nat) (inputs : List T) :
    Run.SameRoot (compiled.call inputs) ((compiled.relocated first).call inputs) := by
  change Run.SameRoot (if inputs.length = compiled.parameters.length then _ else _)
    (if inputs.length = compiled.parameters.length then (compiled.graph.relocated first).run inputs else _)
  split
  · exact compiled.graph.relocated_run earlier rooted first inputs
  · exact fun _ => ⟨rfl, rfl⟩

namespace Evaluator

variable [Numeric T]

-- Where optimizing has rewritten nothing, a call does what it does without, but for the place of its error: that
-- of the first node equal to the one that raised it.
theorem merged_calls [Discerning T] (settings : Settings T σ) (evaluator : Evaluator T σ)
    (built : settings.build = .ok evaluator) (expression : String) (names : List String) (before : σ)
    (raw optimized : Compiled T σ) (plain : ((evaluator.compileWith expression names false).run before).1 = .ok raw)
    (shortened : ((evaluator.compileWith expression names true).run before).1 = .ok optimized)
    (once : optimized.stats?.map OptimizeStats.passes = some 1) :
    ∃ first, raw.graph.cells.Foremost first ∧ ∀ inputs now,
      (optimized.call inputs).outcome now = ((raw.relocated first).call inputs).outcome now ∧
      ((optimized.call inputs).outcome now).mapError EvalError.root =
        ((raw.call inputs).outcome now).mapError EvalError.root ∧
      (optimized.call inputs).after now = (raw.call inputs).after now := by
  obtain ⟨parameters, e, found, rfl, rfl⟩ := compile_both evaluator expression names before raw optimized plain shortened
  have wellFormed := compiled_well_formed settings evaluator built parameters expression e found
  have rooted := Graph.of_expr_rooted e
  have reports : ((Graph.ofExpr e).optimized before).2.length = 1 := by
    rw [← OptimizeStats.passes_length]
    exact Option.some.inj once
  obtain ⟨quiet, same⟩ := Graph.optimized_once _ wellFormed.earlier rooted before reports
  obtain ⟨first, foremost, runs⟩ := Graph.merged_run _ wellFormed rooted before quiet
  refine ⟨first, foremost, fun inputs now => ?_⟩
  have whole := Compiled.call_same
    ⟨expression, names, ((Graph.ofExpr e).optimized before).1, some ((Graph.ofExpr e).optimized before).2⟩
    (Compiled.relocated ⟨expression, names, Graph.ofExpr e, none⟩ first) rfl ((congrArg Graph.run same).trans runs)
  rw [whole]
  obtain ⟨root, after⟩ :=
    Compiled.relocated_call ⟨expression, names, Graph.ofExpr e, none⟩ wellFormed.earlier rooted first inputs now
  exact ⟨rfl, root.symm, after.symm⟩

-- `if(p, 1/q, 2 + 1/q)`
def reciprocal : Expr (Integer .signed) Unit :=
  .node (.conditional (.node (.parameter 0))
    (.node (.binary .div (.node (.constant (Integer.ofBits .signed 1) none)) (.node (.parameter 1)) ⟨7, 8⟩))
    (.node (.binary .add (.node (.constant (Integer.ofBits .signed 2) none))
      (.node (.binary .div (.node (.constant (Integer.ofBits .signed 1) none)) (.node (.parameter 1)) ⟨16, 17⟩)) ⟨13, 14⟩)))

def plainIntegers : Settings (Integer .signed) Unit := .ofFlags ⟨true, false, true, true⟩

theorem reciprocal_tree :
    ∃ evaluator, plainIntegers.build = .ok evaluator ∧ ∃ parameters,
      evaluator.grammar.bindParameters ["p", "q"] = .ok parameters ∧
        evaluator.tree parameters "if(p, 1/q, 2 + 1/q)" = .ok reciprocal := ⟨_, rfl, _, rfl, by with_unfolding_all rfl⟩

theorem reciprocal_once :
    ((finish "if(p, 1/q, 2 + 1/q)" ["p", "q"] true reciprocal).run ()).1.stats?.map OptimizeStats.passes = some 1 := by
  with_unfolding_all rfl

theorem reciprocal_located :
    (((finish "if(p, 1/q, 2 + 1/q)" ["p", "q"] true reciprocal).run ()).1.call
      [Integer.ofBits .signed 0, Integer.ofBits .signed 0]).outcome () = .error (.located ⟨7, 8⟩ .divisionByZero) := by
  with_unfolding_all rfl

theorem reciprocal_merged :
    ∃ evaluator raw optimized, plainIntegers.build = .ok evaluator ∧
      ((evaluator.compileWith "if(p, 1/q, 2 + 1/q)" ["p", "q"] false).run ()).1 = .ok raw ∧
      ((evaluator.compileWith "if(p, 1/q, 2 + 1/q)" ["p", "q"] true).run ()).1 = .ok optimized ∧
      optimized.stats?.map OptimizeStats.passes = some 1 ∧
      ∃ first, raw.graph.cells.Foremost first ∧
        ((raw.relocated first).call [Integer.ofBits .signed 0, Integer.ofBits .signed 0]).outcome () =
          .error (.located ⟨7, 8⟩ .divisionByZero) := by
  obtain ⟨evaluator, built, parameters, bound, found⟩ := reciprocal_tree
  have plain := (compile_ok evaluator _ ["p", "q"] false () _).mpr ⟨parameters, reciprocal, bound, found, rfl⟩
  have shortened := (compile_ok evaluator _ ["p", "q"] true () _).mpr ⟨parameters, reciprocal, bound, found, rfl⟩
  obtain ⟨first, foremost, calls⟩ := merged_calls plainIntegers evaluator built _ _ () _ _ plain shortened
    reciprocal_once
  exact ⟨evaluator, _, _, built, plain, shortened, reciprocal_once, first, foremost,
    (calls [Integer.ofBits .signed 0, Integer.ofBits .signed 0] ()).1.symm.trans reciprocal_located⟩

-- The error comes from the second division and is located at the first one, which does not run.
theorem reciprocal_misplaced :
    ∃ evaluator raw optimized, plainIntegers.build = .ok evaluator ∧
      ((evaluator.compileWith "if(p, 1/q, 2 + 1/q)" ["p", "q"] false).run ()).1 = .ok raw ∧
      ((evaluator.compileWith "if(p, 1/q, 2 + 1/q)" ["p", "q"] true).run ()).1 = .ok optimized ∧
      optimized.stats?.map OptimizeStats.passes = some 1 ∧
      (raw.call [Integer.ofBits .signed 0, Integer.ofBits .signed 0]).outcome () =
        .error (.located ⟨16, 17⟩ .divisionByZero) ∧
      (optimized.call [Integer.ofBits .signed 0, Integer.ofBits .signed 0]).outcome () =
        .error (.located ⟨7, 8⟩ .divisionByZero) := by
  obtain ⟨evaluator, built, parameters, bound, found⟩ := reciprocal_tree
  have plain := (compile_ok evaluator _ ["p", "q"] false () _).mpr ⟨parameters, reciprocal, bound, found, rfl⟩
  have shortened := (compile_ok evaluator _ ["p", "q"] true () _).mpr ⟨parameters, reciprocal, bound, found, rfl⟩
  exact ⟨evaluator, _, _, built, plain, shortened, reciprocal_once, by with_unfolding_all rfl, reciprocal_located⟩

end Evaluator

end Formula
