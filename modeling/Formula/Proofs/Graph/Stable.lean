import Formula.Proofs.Graph.Idempotent
import Formula.Proofs.Graph.Listing

set_option autoImplicit false

namespace Formula

variable {T σ : Type}

def Shape.outline {ι : Type} (shape : Shape T σ ι) : Shape T σ Unit := shape.map fun _ => ()

theorem Shape.outline_map {ι κ : Type} (f : ι → κ) (shape : Shape T σ ι) : (shape.map f).outline = shape.outline :=
  Shape.map_map f _ shape

variable (holds : Shape T σ Unit → Prop)

namespace Cells

def Every (cells : Cells T σ) : Prop :=
  ∀ (index : Nat) (shape : Shape T σ Nat), cells[index]? = some shape → holds shape.outline

theorem every_push (cells : Cells T σ) (fresh : Shape T σ Nat) (every : cells.Every holds)
    (here : holds fresh.outline) : Every holds (cells.push fresh) := by
  intro index shape read
  rcases read_push cells index fresh shape read with old | ⟨-, rfl⟩
  · exact every index shape old
  · exact here

theorem reachable_every (cells : Cells T σ) (earlier : cells.Earlier) (every : cells.Every holds) (root : Nat)
    (bound : root < cells.size) : (cells.reachable root).Every holds := by
  intro index shape read
  obtain ⟨old, original, -, -, oldRead, rfl⟩ := reachable_entry cells earlier root bound index shape read
  rw [Shape.outline_map]
  exact every old original oldRead

end Cells

section

variable [Numeric T]

def Rewrite.Keeps : Prop :=
  ∀ (cells : Cells T σ) (host : σ) (shape fresh : Shape T σ Nat),
    Rule cells host shape (.fresh fresh) → holds shape.outline → holds fresh.outline

-- Besides constants, rules bring in negations, each for a subtraction, a product or a quotient.
theorem Rewrite.keeps_negated (constant : ∀ value name, holds (.constant value name))
    (negated : ∀ op span place, op ∈ [BinaryOperator.sub, .mul, .div] → holds (.binary op () () span) →
      holds (.unary .negate () place)) : Rewrite.Keeps holds := by
  intro cells host shape fresh rule here
  generalize target : (Replacement.fresh fresh : Replacement T σ) = replacement at rule
  cases rule with
  | left op left right span a effect leftKnown rightOpen identity =>
      cases identity with
      | zeroNegated zero =>
          obtain rfl := Replacement.fresh.inj target
          exact negated _ span span (by simp) here
      | minusOne signed minusOne =>
          obtain rfl := Replacement.fresh.inj target
          exact negated _ span span (by simp) here
      | _ => simp [Rewrite.Effect.place] at target
  | right op left right span b effect leftOpen rightKnown identity =>
      cases identity with
      | minusOne nonzero signed minusOne known =>
          obtain rfl := Replacement.fresh.inj target
          exact negated op span span (List.mem_cons_of_mem _ known) here
      | _ => simp [Rewrite.Effect.place] at target
  | noop conversion operand span noop => simp at target
  | conditional condition accepted rejected a known => simp at target
  | _ =>
      obtain rfl := Replacement.fresh.inj target
      exact constant _ _

namespace Cells

theorem shared_every (cells next : Cells T σ) (shape : Shape T σ Nat) (place : Nat) (earlier : cells.Earlier)
    (every : cells.Every holds) (below : ∀ child ∈ shape.children, child < cells.size) (here : holds shape.outline)
    (shared : Shared cells shape next place) : next.Earlier ∧ next.Every holds ∧ place < next.size := by
  cases shared with
  | found _ entry read like => exact ⟨earlier, every, read_bound cells place entry read⟩
  | pushed new => exact ⟨earlier_push cells shape earlier below, every_push holds cells shape every here, by simp⟩

theorem shared_earlier (cells next : Cells T σ) (shape : Shape T σ Nat) (place : Nat) (earlier : cells.Earlier)
    (below : ∀ child ∈ shape.children, child < cells.size) (shared : Shared cells shape next place) : next.Earlier :=
  (shared_every (fun _ => True) cells next shape place earlier (fun _ _ _ => trivial) below trivial shared).1

theorem carried_every (keeps : Rewrite.Keeps holds) (cells next : Cells T σ) (shape : Shape T σ Nat) (host : σ)
    (place : Nat) (earlier : cells.Earlier) (every : cells.Every holds)
    (below : ∀ child ∈ shape.children, child < cells.size) (here : holds shape.outline)
    (carried : Carried cells shape host next place) : next.Earlier ∧ next.Every holds ∧ place < next.size := by
  cases carried with
  | kept _ _ undecided shared => exact shared_every holds cells next shape place earlier every below here shared
  | existing _ rule => exact ⟨earlier, every, below place (Rewrite.rule_existing cells host shape place rule)⟩
  | fresh node _ _ rule shared =>
      have inside : ∀ child ∈ node.children, child < cells.size := fun child isChild =>
        below child ((Rewrite.rule_fresh cells host shape node rule).1 child isChild)
      exact shared_every holds cells next node place earlier every inside (keeps cells host shape node rule here) shared

end Cells

namespace Pass

structure Kept (old : Cells T σ) (pass : Pass T σ) : Prop where
  earlier : pass.cells.Earlier
  every : pass.cells.Every holds
  size : pass.places.size = old.size
  bound : ∀ index, index < old.size → pass.placeOf index < pass.cells.size

theorem carry_kept (keeps : Rewrite.Keeps holds) (old : Cells T σ) (fresh : Shape T σ Nat) (pass : Pass T σ) (host : σ)
    (kept : pass.Kept holds old) (below : ∀ child ∈ fresh.children, child < old.size) (here : holds fresh.outline) :
    (pass.carry fresh host).1.Kept holds (old.push fresh) := by
  obtain ⟨place, places, carried⟩ := carry_carried pass fresh host
  have inside : ∀ child ∈ (fresh.map pass.placeOf).children, child < pass.cells.size := by
    intro child isChild
    rw [Shape.children_map] at isChild
    obtain ⟨oldChild, isOldChild, rfl⟩ := List.mem_map.mp isChild
    exact kept.bound oldChild (below oldChild isOldChild)
  obtain ⟨earlier, every, placed⟩ := Cells.carried_every holds keeps _ _ _ _ place kept.earlier kept.every inside
    (by rwa [Shape.outline_map]) carried
  refine ⟨earlier, every, by rw [places, Array.size_push, Array.size_push, kept.size], ?_⟩
  intro index bound
  rw [Array.size_push, ← kept.size] at bound
  by_cases last : index = pass.places.size
  · rw [last, place_new pass _ place places]
    exact placed
  · have older : index < pass.places.size := by omega
    rw [place_old pass _ place index places older]
    exact Nat.lt_of_lt_of_le (kept.bound index (kept.size ▸ older)) (Cells.carried_extends _ _ _ _ _ carried).size

theorem carry_all_kept (keeps : Rewrite.Keeps holds) (cells : Cells T σ) (host : σ) (earlier : cells.Earlier)
    (every : cells.Every holds) : (carryAll cells host).1.Kept holds cells := by
  induction cells using Cells.push_induction with
  | empty => exact ⟨Cells.earlier_empty, every, rfl, by simp⟩
  | push cells fresh ih =>
      obtain ⟨before, below⟩ := Cells.earlier_of_push cells fresh earlier
      have older : cells.Every holds := fun index shape read =>
        every index shape ((Cells.read_push_old cells index fresh (Cells.read_bound cells index shape read)).trans read)
      rw [carry_all_push]
      exact carry_kept holds keeps cells fresh _ _ (ih before older) below
        (every cells.size fresh Array.getElem?_push_size)

end Pass

end

namespace Graph

structure Uniform (graph : Graph T σ) : Prop where
  earlier : graph.cells.Earlier
  rooted : graph.cells ≠ #[]
  every : graph.cells.Every holds

section

variable [Numeric T]

theorem passed_uniform (keeps : Rewrite.Keeps holds) (graph : Graph T σ) (host : σ) (uniform : graph.Uniform holds) :
    (graph.passed host).1.Uniform holds := by
  have kept := Pass.carry_all_kept holds keeps graph.cells host uniform.earlier uniform.every
  have root := kept.bound graph.cells.top (Cells.top_bound graph.cells uniform.rooted)
  rw [passed_carried graph host kept.size]
  refine ⟨Cells.reachable_earlier _ kept.earlier _ root, ?_, Cells.reachable_every holds _ kept.earlier kept.every _ root⟩
  intro empty
  have last := Cells.order_last _ kept.earlier _ root
  simp only [ofCells] at empty
  simp [empty] at last

theorem optimize_within_uniform (keeps : Rewrite.Keeps holds) (fuel : Nat) (graph : Graph T σ) (host : σ)
    (uniform : graph.Uniform holds) : ((graph.optimizeWithin fuel).run host).1.1.Uniform holds := by
  induction fuel generalizing graph host with
  | zero => exact uniform
  | succ fuel ih =>
      have next := passed_uniform holds keeps graph host uniform
      rw [optimize_within_succ]
      by_cases done : (graph.passed host).2.rewrites = 0
      · rwa [if_pos done]
      · rw [if_neg done]
        exact ih _ _ next

theorem optimized_uniform (keeps : Rewrite.Keeps holds) (graph : Graph T σ) (host : σ)
    (uniform : graph.Uniform holds) : (graph.optimized host).1.Uniform holds :=
  optimize_within_uniform holds keeps _ graph host uniform

end

end Graph

namespace Listing

theorem constant_every (listing : Listing T σ) (value : T) (name : Option String) (every : listing.cells.Every holds)
    (here : holds (.constant value name)) : (listing.pushConstant value name).1.cells.Every holds := by
  have pushed := Cells.every_push holds listing.cells (.constant value name) every here
  cases name with
  | none => exact pushed
  | some name =>
      cases found : listing.named.lookup name with
      | some index => simpa only [pushConstant, found] using every
      | none => simpa only [pushConstant, found] using pushed

theorem add_all_every (args : List (Expr T σ))
    (each : ∀ arg ∈ args, ∀ listing : Listing T σ, listing.cells.Every holds → (listing.add arg).1.cells.Every holds)
    (listing : Listing T σ) (every : listing.cells.Every holds) :
    (listing.addAll args).1.cells.Every holds ∧ (listing.addAll args).2.length = args.length := by
  induction args generalizing listing with
  | nil => exact ⟨every, rfl⟩
  | cons arg rest ih =>
      have first := each arg (by simp) listing every
      obtain ⟨later, count⟩ := ih (fun other member => each other (by simp [member])) _ first
      exact ⟨later, congrArg Nat.succ count⟩

theorem add_every (e : Expr T σ) (within : e.Every fun shape => holds shape.outline) (listing : Listing T σ)
    (every : listing.cells.Every holds) : (listing.add e).1.cells.Every holds := by
  induction e using Expr.induction_on_children generalizing listing with
  | step shape ih =>
      obtain ⟨_, here, below⟩ := within
      by_cases constant : ∃ value name, shape = .constant value name
      · obtain ⟨value, name, rfl⟩ := constant
        exact constant_every holds listing value name every here
      · obtain ⟨placed, added, -, -, same⟩ := add_node listing shape fun value name same => constant ⟨value, name, same⟩
        obtain ⟨children, count⟩ := add_all_every holds shape.children
          (fun arg member => ih arg member (below arg member)) listing every
        have outline : placed.outline = shape.outline := same Unit _ _ (by simp [count])
        rw [added]
        exact Cells.every_push holds _ placed children (outline ▸ here)

end Listing

theorem Graph.of_expr_uniform (e : Expr T σ) (within : e.Every fun shape => holds shape.outline) :
    (Graph.ofExpr e).Uniform holds :=
  ⟨of_expr_earlier e, of_expr_rooted e, Listing.add_every holds e within ⟨#[], []⟩ fun index shape read => by simp at read⟩

end Formula
