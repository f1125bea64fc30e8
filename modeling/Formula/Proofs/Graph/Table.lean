import Formula.Graph
import Mathlib.Data.List.Induction

set_option autoImplicit false

namespace Formula

namespace Shape

variable {T σ ι κ α : Type}

theorem map_map (f : ι → κ) (g : κ → α) (shape : Shape T σ ι) :
    (shape.map f).map g = shape.map fun child => g (f child) := by
  cases shape <;> simp [map]

theorem children_map (f : ι → κ) (shape : Shape T σ ι) : (shape.map f).children = shape.children.map f := by
  cases shape <;> rfl

theorem map_congr (f g : ι → κ) (shape : Shape T σ ι) (agree : ∀ child ∈ shape.children, f child = g child) :
    shape.map f = shape.map g := by
  cases shape <;> simp_all [map, children]

theorem map_same (f : ι → ι) (shape : Shape T σ ι) (agree : ∀ child ∈ shape.children, f child = child) :
    shape.map f = shape := by
  have kept : shape.map (fun child => child) = shape := by cases shape <;> simp [map]
  exact (map_congr f (fun child => child) shape agree).trans kept

end Shape

namespace Cells

variable {T σ α : Type}

theorem push_induction {P : Cells T σ → Prop} (empty : P #[])
    (push : ∀ cells shape, P cells → P (cells.push shape)) (cells : Cells T σ) : P cells := by
  obtain ⟨entries⟩ := cells
  induction entries using List.reverseRecOn with
  | nil => exact empty
  | append_singleton entries shape ih => simpa using push ⟨entries⟩ shape ih

theorem read_bound (cells : Cells T σ) (index : Nat) (shape : Shape T σ Nat)
    (read : cells[index]? = some shape) : index < cells.size := by
  by_cases bound : index < cells.size
  · exact bound
  · rw [Array.getElem?_eq_none (Nat.le_of_not_gt bound)] at read
    exact absurd read (by simp)

theorem read_exists (cells : Cells T σ) (index : Nat) (bound : index < cells.size) :
    ∃ shape, cells[index]? = some shape := ⟨_, Array.getElem?_eq_getElem bound⟩

theorem read_push (cells : Cells T σ) (index : Nat) (fresh shape : Shape T σ Nat)
    (read : (cells.push fresh)[index]? = some shape) :
    cells[index]? = some shape ∨ index = cells.size ∧ shape = fresh := by
  rw [Array.getElem?_push] at read
  split at read
  · rename_i last
    exact .inr ⟨last, (Option.some.inj read).symm⟩
  · exact .inl read

theorem read_push_old (cells : Cells T σ) (index : Nat) (fresh : Shape T σ Nat) (bound : index < cells.size) :
    (cells.push fresh)[index]? = cells[index]? := by
  rw [Array.getElem?_push, if_neg (Nat.ne_of_lt bound)]

def Earlier (cells : Cells T σ) : Prop :=
  ∀ index (shape : Shape T σ Nat), cells[index]? = some shape → ∀ child ∈ shape.children, child < index

theorem earlier_empty : Earlier (#[] : Cells T σ) := by
  intro index shape read
  simp at read

theorem earlier_push (cells : Cells T σ) (fresh : Shape T σ Nat) (earlier : cells.Earlier)
    (below : ∀ child ∈ fresh.children, child < cells.size) : Earlier (cells.push fresh) := by
  intro index shape read
  rcases read_push cells index fresh shape read with old | ⟨rfl, rfl⟩
  · exact earlier index shape old
  · exact below

theorem earlier_of_push (cells : Cells T σ) (fresh : Shape T σ Nat) (earlier : Earlier (cells.push fresh)) :
    cells.Earlier ∧ ∀ child ∈ fresh.children, child < cells.size := by
  refine ⟨?_, earlier cells.size fresh Array.getElem?_push_size⟩
  intro index shape read
  have bound := read_bound cells index shape read
  exact earlier index shape ((read_push_old cells index fresh bound).trans read)

theorem entry_induction {P : Nat → Prop} (cells : Cells T σ) (earlier : cells.Earlier)
    (step : ∀ (index : Nat) (shape : Shape T σ Nat), cells[index]? = some shape →
      (∀ child ∈ shape.children, P child) → P index) (index : Nat) (bound : index < cells.size) : P index := by
  induction index using Nat.strongRecOn with
  | ind index ih =>
      obtain ⟨shape, read⟩ := read_exists cells index bound
      apply step index shape read
      intro child isChild
      have before := earlier index shape read child isChild
      exact ih child before (Nat.lt_trans before bound)

def worth (layer : Shape T σ α → α) (fallback : α) (cells : Cells T σ) (index : Nat) : α :=
  (cells.values layer fallback).getD index fallback

section

variable (layer : Shape T σ α → α) (fallback : α)

theorem values_push (cells : Cells T σ) (fresh : Shape T σ Nat) :
    values layer fallback (cells.push fresh) =
      (cells.values layer fallback).push (layer (fresh.map (cells.worth layer fallback))) := by
  simp only [values, Array.foldl_push]
  rfl

theorem values_size (cells : Cells T σ) : (cells.values layer fallback).size = cells.size := by
  induction cells using push_induction with
  | empty => rfl
  | push cells fresh ih => rw [values_push, Array.size_push, Array.size_push, ih]

theorem worth_push_old (cells : Cells T σ) (fresh : Shape T σ Nat) (index : Nat) (bound : index < cells.size) :
    worth layer fallback (cells.push fresh) index = worth layer fallback cells index := by
  rw [← values_size layer fallback cells] at bound
  simp [worth, values_push, Array.getD_eq_getD_getElem?, Array.getElem?_push, Nat.ne_of_lt bound]

theorem worth_push_new (cells : Cells T σ) (fresh : Shape T σ Nat) :
    worth layer fallback (cells.push fresh) cells.size = layer (fresh.map (cells.worth layer fallback)) := by
  rw [worth, values_push, ← values_size layer fallback cells, Array.getD_eq_getD_getElem?, Array.getElem?_push_size]
  rfl

theorem worth_push_children (cells : Cells T σ) (fresh shape : Shape T σ Nat)
    (below : ∀ child ∈ shape.children, child < cells.size) :
    shape.map (worth layer fallback (cells.push fresh)) = shape.map (worth layer fallback cells) := by
  apply Shape.map_congr
  intro child member
  exact worth_push_old layer fallback cells fresh child (below child member)

theorem worth_read (cells : Cells T σ) (earlier : cells.Earlier) (index : Nat) (shape : Shape T σ Nat)
    (read : cells[index]? = some shape) :
    cells.worth layer fallback index = layer (shape.map (cells.worth layer fallback)) := by
  induction cells using push_induction with
  | empty => simp at read
  | push cells fresh ih =>
      obtain ⟨before, below⟩ := earlier_of_push cells fresh earlier
      rcases read_push cells index fresh shape read with old | ⟨rfl, rfl⟩
      · have bound := read_bound cells index shape old
        rw [worth_push_old layer fallback cells fresh index bound, ih before old,
          worth_push_children layer fallback cells fresh shape fun child member =>
            Nat.lt_trans (before index shape old child member) bound]
      · rw [worth_push_new, worth_push_children layer fallback cells shape shape below]

end

def top (cells : Cells T σ) : Nat := cells.size - 1

theorem top_bound (cells : Cells T σ) (some : cells ≠ #[]) : cells.top < cells.size := by
  have nonzero : cells.size ≠ 0 := fun none => some (Array.eq_empty_of_size_eq_zero none)
  rw [top]
  omega

theorem worth_related {β : Type} (related : α → β → Prop) (layer : Shape T σ α → α) (other : Shape T σ β → β)
    (fallback : α) (otherFallback : β) (cells : Cells T σ) (earlier : cells.Earlier)
    (step : ∀ (index : Nat) (shape : Shape T σ Nat) (f : Nat → α) (g : Nat → β), cells[index]? = some shape →
      (∀ child ∈ shape.children, related (f child) (g child)) → related (layer (shape.map f)) (other (shape.map g)))
    (index : Nat) (bound : index < cells.size) :
    related (cells.worth layer fallback index) (cells.worth other otherFallback index) := by
  apply entry_induction cells earlier _ index bound
  intro index shape read below
  rw [worth_read _ _ cells earlier index shape read, worth_read _ _ cells earlier index shape read]
  exact step index shape _ _ read below

end Cells

theorem Graph.fold_top {T σ α : Type} (layer : Shape T σ α → α) (fallback : α) (graph : Graph T σ) :
    graph.fold layer fallback = graph.cells.worth layer fallback graph.cells.top := by
  simp only [Graph.fold, Cells.worth, Cells.top, Array.back?, Array.getD_eq_getD_getElem?, Cells.values_size]

theorem Graph.fold_related {T σ α β : Type} (related : α → β → Prop) (layer : Shape T σ α → α)
    (other : Shape T σ β → β) (fallback : α) (otherFallback : β) (graph : Graph T σ) (earlier : graph.cells.Earlier)
    (nothing : related fallback otherFallback)
    (step : ∀ (index : Nat) (shape : Shape T σ Nat) (f : Nat → α) (g : Nat → β), graph.cells[index]? = some shape →
      (∀ child ∈ shape.children, related (f child) (g child)) → related (layer (shape.map f)) (other (shape.map g))) :
    related (graph.fold layer fallback) (graph.fold other otherFallback) := by
  by_cases empty : graph.cells = #[]
  · simpa [Graph.fold, empty, Cells.values] using nothing
  · rw [Graph.fold_top, Graph.fold_top]
    exact Cells.worth_related related layer other fallback otherFallback graph.cells earlier step _
      (Cells.top_bound graph.cells empty)

end Formula
