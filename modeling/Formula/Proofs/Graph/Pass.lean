import Formula.Graph.Optimize
import Formula.Proofs.Graph.Irreducible

set_option autoImplicit false

namespace Formula

variable {T σ : Type} [Numeric T]

-- The types whose values are told apart alike from both sides.
class SymmetricSame (T : Type) [Numeric T] : Prop where
  same_symm : ∀ a b : T, Numeric.same a b = true → Numeric.same b a = true

namespace Rewrite

theorem rule_existing (cells : Cells T σ) (host : σ) (shape : Shape T σ Nat) (index : Nat)
    (rule : Rule cells host shape (.existing index)) : index ∈ shape.children := by
  generalize target : (Replacement.existing index : Replacement T σ) = replacement at rule
  cases rule with
  | left op left right span a effect leftKnown rightOpen identity =>
      cases effect <;> simp_all [Effect.place, Shape.children]
  | right op left right span b effect leftOpen rightKnown identity =>
      cases effect <;> simp_all [Effect.place, Shape.children]
  | noop conversion operand span noop => simp_all [Shape.children]
  | conditional condition accepted rejected a known =>
      obtain rfl := Replacement.existing.inj target
      split <;> simp [Shape.children]
  | _ => simp at target

theorem rule_fresh (cells : Cells T σ) (host : σ) (shape fresh : Shape T σ Nat)
    (rule : Rule cells host shape (.fresh fresh)) :
    (∀ child ∈ fresh.children, child ∈ shape.children) ∧ fresh.borrowed? = none := by
  generalize target : (Replacement.fresh fresh : Replacement T σ) = replacement at rule
  cases rule with
  | left op left right span a effect leftKnown rightOpen identity =>
      cases effect <;> simp_all [Effect.place, Shape.children, Shape.borrowed?]
  | right op left right span b effect leftOpen rightKnown identity =>
      cases effect <;> simp_all [Effect.place, Shape.children, Shape.borrowed?]
  | noop conversion operand span noop => simp at target
  | conditional condition accepted rejected a known => simp at target
  | _ =>
      obtain rfl := Replacement.fresh.inj target
      simp [Shape.children, Shape.borrowed?]

end Rewrite

namespace Cells

inductive Shared (cells : Cells T σ) (shape : Shape T σ Nat) : Cells T σ → Nat → Prop
  | found (index : Nat) (entry : Shape T σ Nat) (read : cells[index]? = some entry)
      (like : alike shape entry = true) : Shared cells shape cells index
  | pushed (new : ∀ (index : Nat) (entry : Shape T σ Nat), cells[index]? = some entry → alike shape entry = false) :
      Shared cells shape (cells.push shape) cells.size

theorem find_some (cells : Cells T σ) (shape : Shape T σ Nat) (index : Nat) (found : cells.find? shape = some index) :
    ∃ entry, cells[index]? = some entry ∧ alike shape entry = true := by
  obtain ⟨bound, like, -⟩ := Array.findIdx?_eq_some_iff_getElem.mp found
  exact ⟨cells[index], Array.getElem?_eq_getElem bound, like⟩

theorem find_none (cells : Cells T σ) (shape : Shape T σ Nat) :
    cells.find? shape = none ↔
      ∀ (index : Nat) (entry : Shape T σ Nat), cells[index]? = some entry → alike shape entry = false := by
  unfold find?
  rw [Array.findIdx?_eq_none_iff]
  constructor
  · intro none index entry read
    exact none entry (Array.mem_of_getElem? read)
  · intro none entry member
    obtain ⟨index, read⟩ := Array.mem_iff_getElem?.mp member
    exact none index entry read

-- What a table becomes when one node is carried over, and the place where the node goes.
inductive Carried (cells : Cells T σ) (shape : Shape T σ Nat) (host : σ) : Cells T σ → Nat → Prop
  | kept (next : Cells T σ) (place : Nat) (undecided : Rewrite.decided cells shape host = none)
      (shared : Shared cells shape next place) : Carried cells shape host next place
  | existing (place : Nat) (rule : Rewrite.Rule cells host shape (.existing place)) :
      Carried cells shape host cells place
  | fresh (node : Shape T σ Nat) (next : Cells T σ) (place : Nat) (rule : Rewrite.Rule cells host shape (.fresh node))
      (shared : Shared cells node next place) : Carried cells shape host next place

end Cells

namespace Pass

def placeOf (pass : Pass T σ) (index : Nat) : Nat := pass.places.getD index 0

theorem share_shared (pass : Pass T σ) (shape : Shape T σ Nat) :
    ∃ place, (pass.share shape).places = pass.places.push place ∧
      Cells.Shared pass.cells shape (pass.share shape).cells place := by
  unfold share
  cases found : pass.cells.find? shape with
  | some index =>
      obtain ⟨entry, read, like⟩ := Cells.find_some pass.cells shape index found
      exact ⟨index, rfl, .found index entry read like⟩
  | none => exact ⟨pass.cells.size, rfl, .pushed ((Cells.find_none pass.cells shape).mp found)⟩

def carry (pass : Pass T σ) (shape : Shape T σ Nat) (host : σ) : Pass T σ × σ := (pass.step shape).run host

theorem carry_decided (pass : Pass T σ) (shape : Shape T σ Nat) (host : σ) :
    (pass.carry shape host).1 =
      match Rewrite.decided pass.cells (shape.map pass.placeOf) host with
      | some replacement => pass.replace (pass.sizeOf (shape.map pass.placeOf)) replacement
      | none => pass.share (shape.map pass.placeOf) := by
  unfold carry step Rewrite.decided
  simp only [StateT.run_bind]
  delta placeOf
  generalize (Rewrite.rewrite? pass.cells (shape.map fun child => pass.places.getD child 0)).run host = outcome
  obtain ⟨decision, after⟩ := outcome
  cases decision <;> rfl

theorem carry_carried (pass : Pass T σ) (shape : Shape T σ Nat) (host : σ) :
    ∃ place, (pass.carry shape host).1.places = pass.places.push place ∧
      Cells.Carried pass.cells (shape.map pass.placeOf) host (pass.carry shape host).1.cells place := by
  rw [carry_decided]
  cases decision : Rewrite.decided pass.cells (shape.map pass.placeOf) host with
  | none =>
      obtain ⟨place, placed, shared⟩ := share_shared pass (shape.map pass.placeOf)
      exact ⟨place, placed, .kept _ place decision shared⟩
  | some replacement =>
      have rule := Rewrite.decided_rule pass.cells host (shape.map pass.placeOf) replacement decision
      cases replacement with
      | existing index => exact ⟨index, rfl, .existing index rule⟩
      | fresh node =>
          obtain ⟨place, placed, shared⟩ :=
            share_shared (pass.countRewrite (pass.sizeOf (shape.map pass.placeOf)) (pass.sizeOf node)) node
          exact ⟨place, placed, .fresh node _ place rule shared⟩

def carryAll (cells : Cells T σ) (host : σ) : Pass T σ × σ := (cells.foldlM Pass.step Pass.start).run host

theorem carry_all_push (cells : Cells T σ) (shape : Shape T σ Nat) (host : σ) :
    carryAll (cells.push shape) host = (carryAll cells host).1.carry shape (carryAll cells host).2 := by
  unfold carryAll carry
  rw [Array.foldlM_push]
  rfl

end Pass

end Formula
