import Formula.Proofs.Graph.Table
import Mathlib.Data.List.Nodup

set_option autoImplicit false

namespace Formula.Cells

variable {T σ α : Type}

theorem mem_append (seen more : List Nat) (index : Nat) :
    index ∈ append seen more ↔ index ∈ seen ∨ index ∈ more := by
  by_cases old : index ∈ seen <;> simp [append, old]

theorem append_nodup (seen more : List Nat) (seenOnce : seen.Nodup) (moreOnce : more.Nodup) :
    (append seen more).Nodup := by
  refine List.Nodup.append seenOnce (moreOnce.filter _) ?_
  intro index old fresh
  simp [old] at fresh

def gather (order : Nat → List Nat) (seen children : List Nat) : List Nat :=
  children.foldl (fun seen child => append seen (order child)) seen

theorem mem_gather (order : Nat → List Nat) (seen children : List Nat) (index : Nat) :
    index ∈ gather order seen children ↔ index ∈ seen ∨ ∃ child ∈ children, index ∈ order child := by
  induction children generalizing seen with
  | nil => simp [gather]
  | cons child rest ih =>
      rw [gather, List.foldl_cons, ← gather, ih, mem_append]
      simp [or_assoc]

theorem gather_nodup (order : Nat → List Nat) (seen children : List Nat) (seenOnce : seen.Nodup)
    (once : ∀ child ∈ children, (order child).Nodup) : (gather order seen children).Nodup := by
  induction children generalizing seen with
  | nil => exact seenOnce
  | cons child rest ih =>
      rw [gather, List.foldl_cons, ← gather]
      exact ih _ (append_nodup seen (order child) seenOnce (once child (by simp)))
        fun child member => once child (by simp [member])

theorem gather_congr (order other : Nat → List Nat) (seen children : List Nat)
    (agree : ∀ child ∈ children, order child = other child) :
    gather order seen children = gather other seen children := by
  induction children generalizing seen with
  | nil => rfl
  | cons child rest ih =>
      rw [gather, gather, List.foldl_cons, List.foldl_cons, ← gather, ← gather, agree child (by simp)]
      exact ih _ fun child member => agree child (by simp [member])

theorem append_map (rename : Nat → Nat) (seen more : List Nat)
    (apart : ∀ a ∈ seen, ∀ b ∈ more, rename b = rename a → b = a) :
    (append seen more).map rename = append (seen.map rename) (more.map rename) := by
  rw [append, append, List.map_append, List.filter_map]
  congr 2
  apply List.filter_congr
  intro b member
  by_cases old : b ∈ seen
  · simp only [old, not_true_eq_false, decide_false, Function.comp_apply, List.mem_map]
    simpa using ⟨b, old, rfl⟩
  · have fresh : rename b ∉ seen.map rename := by
      intro found
      obtain ⟨a, present, same⟩ := List.mem_map.mp found
      exact old (apart a present b member same.symm ▸ present)
    simp only [old, fresh, not_false_eq_true, decide_true, Function.comp_apply]

theorem gather_map (rename : Nat → Nat) (order other : Nat → List Nat) (known seen children : List Nat)
    (apart : ∀ a ∈ known, ∀ b ∈ known, rename b = rename a → b = a) (seenKnown : seen ⊆ known)
    (below : ∀ child ∈ children, order child ⊆ known)
    (renamed : ∀ child ∈ children, other (rename child) = (order child).map rename) :
    gather other (seen.map rename) (children.map rename) = (gather order seen children).map rename := by
  induction children generalizing seen with
  | nil => rfl
  | cons child rest ih =>
      have inside := below child (by simp)
      have moved := append_map rename seen (order child)
        fun a aSeen b bBelow => apart a (seenKnown aSeen) b (inside bBelow)
      simp only [gather, List.map_cons, List.foldl_cons] at ih ⊢
      rw [renamed child (by simp), ← moved]
      refine ih _ ?_ (fun child member => below child (by simp [member]))
        fun child member => renamed child (by simp [member])
      intro index member
      rcases (mem_append _ _ _).mp member with old | fresh
      · exact seenKnown old
      · exact inside fresh

def orderOf (cells : Cells T σ) (index : Nat) : List Nat := cells.orders.getD index []

def belowOf (cells : Cells T σ) (shape : Shape T σ Nat) : List Nat := gather cells.orderOf [] shape.children

theorem orders_push (cells : Cells T σ) (fresh : Shape T σ Nat) :
    orders (cells.push fresh) = cells.orders.push (cells.belowOf fresh ++ [cells.orders.size]) := by
  simp only [orders, Array.foldl_push]
  rfl

theorem orders_size (cells : Cells T σ) : cells.orders.size = cells.size := by
  induction cells using push_induction with
  | empty => rfl
  | push cells fresh ih => rw [orders_push, Array.size_push, Array.size_push, ih]

theorem order_push_old (cells : Cells T σ) (fresh : Shape T σ Nat) (index : Nat) (bound : index < cells.size) :
    orderOf (cells.push fresh) index = orderOf cells index := by
  rw [← orders_size cells] at bound
  simp [orderOf, orders_push, Array.getD_eq_getD_getElem?, Array.getElem?_push, Nat.ne_of_lt bound]

theorem order_push_new (cells : Cells T σ) (fresh : Shape T σ Nat) :
    orderOf (cells.push fresh) cells.size = cells.belowOf fresh ++ [cells.size] := by
  rw [orderOf, orders_push, orders_size, ← orders_size cells, Array.getD_eq_getD_getElem?, Array.getElem?_push_size]
  rfl

theorem below_push (cells : Cells T σ) (fresh shape : Shape T σ Nat)
    (below : ∀ child ∈ shape.children, child < cells.size) :
    belowOf (cells.push fresh) shape = belowOf cells shape :=
  gather_congr _ _ _ _ fun child member => order_push_old cells fresh child (below child member)

theorem order_read (cells : Cells T σ) (earlier : cells.Earlier) (index : Nat) (shape : Shape T σ Nat)
    (read : cells[index]? = some shape) : cells.orderOf index = cells.belowOf shape ++ [index] := by
  induction cells using push_induction with
  | empty => simp at read
  | push cells fresh ih =>
      obtain ⟨before, below⟩ := earlier_of_push cells fresh earlier
      rcases read_push cells index fresh shape read with old | ⟨rfl, rfl⟩
      · have bound := read_bound cells index shape old
        rw [order_push_old cells fresh index bound, ih before old,
          below_push cells fresh shape fun child member => Nat.lt_trans (before index shape old child member) bound]
      · rw [order_push_new, below_push cells shape shape below]

theorem mem_order (cells : Cells T σ) (earlier : cells.Earlier) (root index : Nat) (shape : Shape T σ Nat)
    (read : cells[root]? = some shape) :
    index ∈ cells.orderOf root ↔ (∃ child ∈ shape.children, index ∈ cells.orderOf child) ∨ index = root := by
  rw [order_read cells earlier root shape read, List.mem_append, List.mem_singleton, belowOf, mem_gather]
  simp

theorem order_self (cells : Cells T σ) (earlier : cells.Earlier) (root : Nat) (bound : root < cells.size) :
    root ∈ cells.orderOf root := by
  obtain ⟨shape, read⟩ := read_exists cells root bound
  exact (mem_order cells earlier root root shape read).mpr (.inr rfl)

theorem order_bound (cells : Cells T σ) (earlier : cells.Earlier) (root index : Nat) (bound : root < cells.size)
    (member : index ∈ cells.orderOf root) : index ≤ root := by
  revert member
  apply entry_induction cells earlier _ root bound
  intro root shape read ih member
  rcases (mem_order cells earlier root index shape read).mp member with ⟨child, isChild, below⟩ | rfl
  · exact Nat.le_trans (ih child isChild below) (Nat.le_of_lt (earlier root shape read child isChild))
  · exact Nat.le_refl _

theorem order_read_exists (cells : Cells T σ) (earlier : cells.Earlier) (root index : Nat) (bound : root < cells.size)
    (member : index ∈ cells.orderOf root) : ∃ shape, cells[index]? = some shape :=
  read_exists cells index (Nat.lt_of_le_of_lt (order_bound cells earlier root index bound member) bound)

theorem order_nodup (cells : Cells T σ) (earlier : cells.Earlier) (root : Nat) (bound : root < cells.size) :
    (cells.orderOf root).Nodup := by
  apply entry_induction cells earlier _ root bound
  intro root shape read ih
  rw [order_read cells earlier root shape read]
  refine List.Nodup.append (gather_nodup _ _ _ List.nodup_nil ih) (List.nodup_singleton root) ?_
  intro index below last
  obtain rfl := List.mem_singleton.mp last
  rcases (mem_gather _ _ _ _).mp below with nothing | ⟨child, isChild, inside⟩
  · simp at nothing
  · have smaller := earlier index shape read child isChild
    have childBound := Nat.lt_trans smaller (read_bound cells index shape read)
    have atMost := order_bound cells earlier child index childBound inside
    omega

theorem order_trans (cells : Cells T σ) (earlier : cells.Earlier) (root index : Nat) (bound : root < cells.size)
    (member : index ∈ cells.orderOf root) : cells.orderOf index ⊆ cells.orderOf root := by
  revert member
  apply entry_induction cells earlier _ root bound
  intro root shape read ih member
  rcases (mem_order cells earlier root index shape read).mp member with ⟨child, isChild, below⟩ | rfl
  · intro deeper inside
    exact (mem_order cells earlier root deeper shape read).mpr (.inl ⟨child, isChild, ih child isChild below inside⟩)
  · exact fun _ inside => inside

theorem order_child (cells : Cells T σ) (earlier : cells.Earlier) (root index child : Nat)
    (bound : root < cells.size) (member : index ∈ cells.orderOf root) (shape : Shape T σ Nat)
    (read : cells[index]? = some shape) (isChild : child ∈ shape.children) : child ∈ cells.orderOf root := by
  have indexBound := read_bound cells index shape read
  have childBound := Nat.lt_trans (earlier index shape read child isChild) indexBound
  apply order_trans cells earlier root index bound member
  exact (mem_order cells earlier index child shape read).mpr
    (.inl ⟨child, isChild, order_self cells earlier child childBound⟩)

-- Every entry of a list comes after its children, some of which may have come before the list.
def Follows (cells : Cells T σ) (seen : List Nat) : List Nat → Prop
  | [] => True
  | index :: rest =>
      (∀ shape : Shape T σ Nat, cells[index]? = some shape → ∀ child ∈ shape.children, child ∈ seen) ∧
        Follows cells (index :: seen) rest

theorem follows_filter (cells : Cells T σ) (skip seen more entries : List Nat) (inside : seen ⊆ more)
    (skipped : skip ⊆ more) (follows : Follows cells seen entries) :
    Follows cells more (entries.filter (· ∉ skip)) := by
  induction entries generalizing seen more with
  | nil => exact trivial
  | cons index rest ih =>
      by_cases old : index ∈ skip
      · rw [List.filter_cons_of_neg (by simpa using old)]
        exact ih (index :: seen) more (List.cons_subset.mpr ⟨skipped old, inside⟩) skipped follows.2
      · rw [List.filter_cons_of_pos (by simpa using old)]
        refine ⟨fun shape read child isChild => inside (follows.1 shape read child isChild), ?_⟩
        exact ih (index :: seen) (index :: more) (List.cons_subset_cons _ inside)
          (fun a member => List.mem_cons_of_mem _ (skipped member)) follows.2

theorem follows_append (cells : Cells T σ) (seen first second : List Nat) (before : Follows cells seen first)
    (after : ∀ more, first ⊆ more → seen ⊆ more → Follows cells more second) :
    Follows cells seen (first ++ second) := by
  induction first generalizing seen with
  | nil => exact after seen (by simp) (fun _ member => member)
  | cons index rest ih =>
      refine ⟨before.1, ih (index :: seen) before.2 ?_⟩
      intro more restInside seenInside
      obtain ⟨head, tail⟩ := List.cons_subset.mp seenInside
      exact after more (List.cons_subset.mpr ⟨head, restInside⟩) tail

theorem gather_follows (cells : Cells T σ) (order : Nat → List Nat) (seen children : List Nat)
    (before : Follows cells [] seen) (each : ∀ child ∈ children, Follows cells [] (order child)) :
    Follows cells [] (gather order seen children) := by
  induction children generalizing seen with
  | nil => exact before
  | cons child rest ih =>
      rw [gather, List.foldl_cons, ← gather]
      refine ih _ ?_ fun child member => each child (by simp [member])
      exact follows_append cells [] seen _ before fun more inside _ =>
        follows_filter cells seen [] more (order child) (by simp) inside (each child (by simp))

theorem order_follows (cells : Cells T σ) (earlier : cells.Earlier) (root : Nat) (bound : root < cells.size) :
    Follows cells [] (cells.orderOf root) := by
  apply entry_induction cells earlier _ root bound
  intro root shape read ih
  rw [order_read cells earlier root shape read]
  refine follows_append cells [] _ _ (gather_follows cells _ [] _ trivial ih) ?_
  intro more inside _
  refine ⟨?_, trivial⟩
  intro shape' read' child isChild
  obtain rfl : shape = shape' := Option.some.inj (read.symm.trans read')
  have childBound := Nat.lt_trans (earlier root shape read child isChild) (read_bound cells root shape read)
  exact inside ((mem_gather _ _ _ _).mpr (.inr ⟨child, isChild, order_self cells earlier child childBound⟩))

theorem follows_idx (cells : Cells T σ) (seen entries : List Nat) (follows : Follows cells seen entries)
    (index child : Nat) (member : index ∈ entries) (shape : Shape T σ Nat) (read : cells[index]? = some shape)
    (isChild : child ∈ shape.children) : child ∈ seen ∨ entries.idxOf child < entries.idxOf index := by
  induction entries generalizing seen with
  | nil => simp at member
  | cons first rest ih =>
      by_cases here : index = first
      · exact .inl (follows.1 shape (here ▸ read) child isChild)
      · have later := (List.mem_cons.mp member).resolve_left here
        by_cases same : child = first
        · right
          rw [same, List.idxOf_cons_self, List.idxOf_cons_ne _ (Ne.symm here)]
          exact Nat.succ_pos _
        · rcases ih (first :: seen) follows.2 later with old | lower
          · exact .inl ((List.mem_cons.mp old).resolve_left same)
          · right
            rw [List.idxOf_cons_ne _ (Ne.symm here), List.idxOf_cons_ne _ (Ne.symm same)]
            exact Nat.succ_lt_succ lower

theorem order_idx (cells : Cells T σ) (earlier : cells.Earlier) (root index child : Nat) (bound : root < cells.size)
    (member : index ∈ cells.orderOf root) (shape : Shape T σ Nat) (read : cells[index]? = some shape)
    (isChild : child ∈ shape.children) :
    (cells.orderOf root).idxOf child < (cells.orderOf root).idxOf index := by
  have follows := order_follows cells earlier root bound
  rcases follows_idx cells [] _ follows index child member shape read isChild with nothing | lower
  · simp at nothing
  · exact lower

end Formula.Cells
