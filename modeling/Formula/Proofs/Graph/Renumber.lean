import Formula.Proofs.Graph.Reachable

set_option autoImplicit false

namespace Formula.Cells

variable {T σ α : Type}

theorem filter_map_read {β γ : Type} (f : β → Option γ) (entries : List β)
    (present : ∀ entry ∈ entries, (f entry).isSome = true) (index : Nat) :
    (entries.filterMap f)[index]? = entries[index]?.bind f := by
  induction entries generalizing index with
  | nil => simp
  | cons entry rest ih =>
      obtain ⟨value, found⟩ := Option.isSome_iff_exists.mp (present entry (by simp))
      rw [List.filterMap_cons_some found]
      cases index with
      | zero => simp [found]
      | succ index => simpa using ih (fun entry member => present entry (by simp [member])) index

def renamed (cells : Cells T σ) (root index : Nat) : Nat := (cells.orderOf root).idxOf index

theorem reachable_read (cells : Cells T σ) (earlier : cells.Earlier) (root : Nat) (bound : root < cells.size)
    (index : Nat) :
    (cells.reachable root)[index]? =
      (cells.orderOf root)[index]?.bind fun old => cells[old]?.map fun shape => shape.map (cells.renamed root) := by
  have present : ∀ old ∈ cells.orderOf root,
      (cells[old]?.map fun shape : Shape T σ Nat => shape.map (cells.renamed root)).isSome = true := by
    intro old member
    obtain ⟨shape, read⟩ := order_read_exists cells earlier root old bound member
    simp [read]
  have read := filter_map_read _ (cells.orderOf root) present index
  rw [← read, ← List.getElem?_toArray]
  rfl

theorem reachable_size (cells : Cells T σ) (earlier : cells.Earlier) (root : Nat) (bound : root < cells.size) :
    (cells.reachable root).size = (cells.orderOf root).length := by
  apply Nat.le_antisymm
  · apply Nat.le_of_not_lt
    intro more
    have missing := reachable_read cells earlier root bound (cells.orderOf root).length
    rw [Array.getElem?_eq_getElem more] at missing
    simp at missing
  · apply Nat.le_of_not_lt
    intro fewer
    have missing := reachable_read cells earlier root bound (cells.reachable root).size
    rw [Array.getElem?_eq_none (Nat.le_refl _), List.getElem?_eq_getElem fewer, Option.bind_some] at missing
    obtain ⟨shape, read⟩ := order_read_exists cells earlier root _ bound (List.getElem_mem fewer)
    simp [read] at missing

theorem reachable_entry (cells : Cells T σ) (earlier : cells.Earlier) (root : Nat) (bound : root < cells.size)
    (index : Nat) (shape : Shape T σ Nat) (read : (cells.reachable root)[index]? = some shape) :
    ∃ old original, old ∈ cells.orderOf root ∧ cells.renamed root old = index ∧ cells[old]? = some original ∧
      shape = original.map (cells.renamed root) := by
  rw [reachable_read cells earlier root bound] at read
  obtain ⟨old, found, moved⟩ := Option.bind_eq_some_iff.mp read
  obtain ⟨original, oldRead, rfl⟩ := Option.map_eq_some_iff.mp moved
  obtain ⟨inside, rfl⟩ := List.getElem?_eq_some_iff.mp found
  exact ⟨_, original, List.getElem_mem inside, (order_nodup cells earlier root bound).idxOf_getElem index inside,
    oldRead, rfl⟩

theorem reachable_moved (cells : Cells T σ) (earlier : cells.Earlier) (root old : Nat) (bound : root < cells.size)
    (member : old ∈ cells.orderOf root) (original : Shape T σ Nat) (read : cells[old]? = some original) :
    (cells.reachable root)[cells.renamed root old]? = some (original.map (cells.renamed root)) := by
  rw [reachable_read cells earlier root bound, renamed, List.getElem?_idxOf member, Option.bind_some, read]
  rfl

theorem reachable_earlier (cells : Cells T σ) (earlier : cells.Earlier) (root : Nat) (bound : root < cells.size) :
    (cells.reachable root).Earlier := by
  intro index shape read child isChild
  obtain ⟨old, original, member, rfl, oldRead, rfl⟩ := reachable_entry cells earlier root bound index shape read
  rw [Shape.children_map] at isChild
  obtain ⟨oldChild, isOldChild, rfl⟩ := List.mem_map.mp isChild
  exact order_idx cells earlier root old oldChild bound member original oldRead isOldChild

theorem renamed_apart (cells : Cells T σ) (root a b : Nat) (member : a ∈ cells.orderOf root)
    (same : cells.renamed root b = cells.renamed root a) : b = a :=
  ((List.idxOf_inj member).mp same.symm).symm

theorem worth_reachable (layer : Shape T σ α → α) (fallback : α) (cells : Cells T σ) (earlier : cells.Earlier)
    (root : Nat) (bound : root < cells.size) (old : Nat) (member : old ∈ cells.orderOf root) :
    (cells.reachable root).worth layer fallback (cells.renamed root old) = cells.worth layer fallback old := by
  have inside := Nat.lt_of_le_of_lt (order_bound cells earlier root old bound member) bound
  revert member
  apply entry_induction cells earlier _ old inside
  intro old original read ih member
  rw [worth_read layer fallback _ (reachable_earlier cells earlier root bound) _ _
      (reachable_moved cells earlier root old bound member original read),
    worth_read layer fallback cells earlier old original read, Shape.map_map]
  apply congrArg
  apply Shape.map_congr
  intro child isChild
  exact ih child isChild (order_child cells earlier root old child bound member original read isChild)

theorem order_last (cells : Cells T σ) (earlier : cells.Earlier) (root : Nat) (bound : root < cells.size) :
    cells.renamed root root + 1 = (cells.reachable root).size := by
  obtain ⟨shape, read⟩ := read_exists cells root bound
  have order := order_read cells earlier root shape read
  have once := order_nodup cells earlier root bound
  rw [reachable_size cells earlier root bound, renamed, order]
  rw [order] at once
  have fresh : root ∉ cells.belowOf shape := by
    intro old
    exact List.disjoint_of_nodup_append once old (by simp)
  rw [List.idxOf_append_of_notMem fresh]
  simp

theorem fold_of_cells (layer : Shape T σ α → α) (fallback : α) (cells : Cells T σ) (earlier : cells.Earlier)
    (root : Nat) (bound : root < cells.size) :
    (Graph.ofCells cells root).fold layer fallback = cells.worth layer fallback root := by
  rw [← worth_reachable layer fallback cells earlier root bound root (order_self cells earlier root bound),
    Graph.fold_top, Graph.ofCells, top, ← order_last cells earlier root bound, Nat.add_sub_cancel]

theorem order_reachable (cells : Cells T σ) (earlier : cells.Earlier) (root : Nat) (bound : root < cells.size)
    (old : Nat) (member : old ∈ cells.orderOf root) :
    (cells.reachable root).orderOf (cells.renamed root old) = (cells.orderOf old).map (cells.renamed root) := by
  have inside := Nat.lt_of_le_of_lt (order_bound cells earlier root old bound member) bound
  revert member
  apply entry_induction cells earlier _ old inside
  intro old original read ih member
  rw [order_read _ (reachable_earlier cells earlier root bound) _ _
      (reachable_moved cells earlier root old bound member original read),
    order_read cells earlier old original read, List.map_append, belowOf, Shape.children_map]
  congr 1
  have childInside : ∀ child ∈ original.children, child ∈ cells.orderOf root := fun child isChild =>
    order_child cells earlier root old child bound member original read isChild
  exact gather_map (cells.renamed root) cells.orderOf (cells.reachable root).orderOf (cells.orderOf root) []
    original.children (fun a aMember b _ same => renamed_apart cells root a b aMember same) (by simp)
    (fun child isChild => order_trans cells earlier root child bound (childInside child isChild))
    fun child isChild => ih child isChild (childInside child isChild)

-- The table stands in the order of the first visit and holds nothing else.
def Numbered (cells : Cells T σ) : Prop := cells.reachable cells.top = cells

theorem order_top (cells : Cells T σ) (earlier : cells.Earlier) (root : Nat) (bound : root < cells.size) :
    (cells.reachable root).orderOf (cells.reachable root).top = List.range (cells.reachable root).size := by
  have last := order_last cells earlier root bound
  have self := order_self cells earlier root bound
  rw [top, ← last, Nat.add_sub_cancel, order_reachable cells earlier root bound root self, last,
    reachable_size cells earlier root bound]
  apply List.ext_getElem
  · simp
  · intro index inside _
    have once := order_nodup cells earlier root bound
    simp [renamed, once.idxOf_getElem]

theorem range_idx (count index : Nat) (bound : index < count) : (List.range count).idxOf index = index := by
  have once := (List.nodup_range (n := count)).idxOf_getElem index (by simpa using bound)
  simpa using once

theorem reachable_numbered (cells : Cells T σ) (earlier : cells.Earlier) (root : Nat) (bound : root < cells.size) :
    (cells.reachable root).Numbered := by
  have after := reachable_earlier cells earlier root bound
  have inside : (cells.reachable root).top < (cells.reachable root).size := by
    rw [top, ← order_last cells earlier root bound, Nat.add_sub_cancel]
    exact Nat.lt_succ_self _
  apply Array.ext_getElem?
  intro index
  rw [reachable_read _ after _ inside, order_top cells earlier root bound]
  by_cases present : index < (cells.reachable root).size
  · obtain ⟨shape, read⟩ := read_exists (cells.reachable root) index present
    rw [List.getElem?_range present, Option.bind_some, read, Option.map_some]
    congr 1
    apply Shape.map_same
    intro child isChild
    rw [renamed, order_top cells earlier root bound]
    exact range_idx _ child (Nat.lt_trans (after index shape read child isChild) present)
  · rw [Array.getElem?_eq_none (Nat.le_of_not_gt present), List.getElem?_eq_none (by simpa using present)]
    rfl

end Formula.Cells
