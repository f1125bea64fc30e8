import Formula.Proofs.Graph.Normal
import Formula.Proofs.Numeric.Exact

/-!
What equality of graphs looks at: a tree of labels, in which a routine or a member counts by its identity and
nothing is left of places in a text, of the names of constants and of what is shared.
-/

set_option autoImplicit false

namespace Formula

variable {T σ : Type}

inductive Label (T : Type) where
  | constant (value : T)
  | parameter (index : Nat)
  | member (readOnly : Bool) (name : String) (tag : Nat)
  | unary (op : UnaryOperator)
  | binary (op : BinaryOperator)
  | convert (conversion : Conversion)
  | call (kind : RoutineKind) (name : String) (tag : Nat)
  | conditional

def Shape.label {ι : Type} : Shape T σ ι → Label T
  | constant value _ => .constant value
  | parameter index => .parameter index
  | member source => .member source.isReadOnly source.name source.tag
  | unary op _ _ => .unary op
  | binary op _ _ _ => .binary op
  | convert conversion _ _ => .convert conversion
  | call routine _ _ => .call routine.kind routine.name routine.tag
  | conditional _ _ _ => .conditional

inductive Sketch (T : Type) where
  | node (label : Label T) (below : List (Sketch T))

def Shape.sketch (shape : Shape T σ (Sketch T)) : Sketch T := .node shape.label shape.children

theorem Shape.label_map {ι κ : Type} (f : ι → κ) (shape : Shape T σ ι) : (shape.map f).label = shape.label := by
  cases shape <;> rfl

theorem Shape.sketch_map {ι : Type} (f : ι → Sketch T) (shape : Shape T σ ι) :
    (shape.map f).sketch = .node shape.label (shape.children.map f) := by
  rw [sketch, label_map, children_map]

namespace Cells

theorem alike_iff [Numeric T] [Discerning T] (a b : Shape T σ Nat) :
    alike a b = true ↔ a.label = b.label ∧ a.children = b.children := by
  cases a <;> cases b <;>
    simp [alike, Shape.label, Shape.children, Discerning.same_iff, Routine.identical, Member.identical, and_assoc]

def empty : Sketch T := .node .conditional []

def sketch (cells : Cells T σ) (index : Nat) : Sketch T := cells.worth Shape.sketch empty index

theorem sketch_read (cells : Cells T σ) (earlier : cells.Earlier) (index : Nat) (shape : Shape T σ Nat)
    (read : cells[index]? = some shape) : cells.sketch index = .node shape.label (shape.children.map cells.sketch) := by
  rw [sketch, worth_read _ _ cells earlier index shape read, Shape.sketch_map]
  rfl

theorem sketch_extends (cells more : Cells T σ) (earlier : cells.Earlier) (later : more.Earlier)
    (grown : cells.Extends more) (index : Nat) (bound : index < cells.size) : more.sketch index = cells.sketch index :=
  worth_extends _ _ cells more earlier later grown index bound

structure Apart [Numeric T] (cells : Cells T σ) : Prop where
  earlier : cells.Earlier
  single : ∀ (i j : Nat) (a b : Shape T σ Nat), cells[i]? = some a → cells[j]? = some b → alike a b = true → i = j

theorem apart_empty [Numeric T] : Apart (#[] : Cells T σ) := ⟨earlier_empty, by simp⟩

theorem intern_all_push [Numeric T] (into cells : Cells T σ) (fresh : Shape T σ Nat) :
    internAll into (cells.push fresh) =
      let node := fresh.map ((internAll into cells).2.getD · 0)
      (((internAll into cells).1.intern node).1, (internAll into cells).2.push ((internAll into cells).1.intern node).2) := by
  simp only [internAll, Array.foldl_push]

section

variable [Numeric T] [Discerning T]

theorem sketch_apart (cells : Cells T σ) (apart : cells.Apart) (i j : Nat) (bound : i < cells.size)
    (other : j < cells.size) (same : cells.sketch i = cells.sketch j) : i = j := by
  apply entry_induction cells apart.earlier (P := fun i => ∀ j, j < cells.size → cells.sketch i = cells.sketch j → i = j) _
    i bound j other same
  intro i a read below j other same
  obtain ⟨b, reads⟩ := read_exists cells j other
  rw [sketch_read cells apart.earlier i a read, sketch_read cells apart.earlier j b reads] at same
  obtain ⟨label, sketches⟩ := Sketch.node.inj same
  refine apart.single i j a b read reads ((alike_iff a b).mpr ⟨label, ?_⟩)
  have inside : ∀ child ∈ b.children, child < cells.size := fun child isChild =>
    Nat.lt_trans (apart.earlier j b reads child isChild) other
  have each (xs ys : List Nat) (left : ∀ x ∈ xs, ∀ y, y < cells.size → cells.sketch x = cells.sketch y → x = y)
      (right : ∀ y ∈ ys, y < cells.size) (maps : xs.map cells.sketch = ys.map cells.sketch) : xs = ys := by
    induction xs generalizing ys with
    | nil => simpa using maps.symm
    | cons x rest ih =>
        cases ys with
        | nil => simp at maps
        | cons y more =>
            obtain ⟨first, later⟩ := List.cons.inj maps
            rw [left x List.mem_cons_self y (right y List.mem_cons_self) first,
              ih more (fun x member => left x (List.mem_cons_of_mem _ member))
                (fun y member => right y (List.mem_cons_of_mem _ member)) later]
  exact each _ _ below inside sketches

structure Interned (cells : Cells T σ) (shape : Shape T σ Nat) (known : Cells T σ) (place : Nat) : Prop where
  apart : known.Apart
  grown : cells.Extends known
  bound : place < known.size
  sketch : known.sketch place = .node shape.label (shape.children.map cells.sketch)

theorem intern_node (cells : Cells T σ) (apart : cells.Apart) (shape : Shape T σ Nat)
    (below : ∀ child ∈ shape.children, child < cells.size) :
    cells.Interned shape (cells.intern shape).1 (cells.intern shape).2 := by
  unfold intern
  cases found : cells.find? shape with
  | some index =>
      obtain ⟨entry, read, like⟩ := find_some cells shape index found
      obtain ⟨label, children⟩ := (alike_iff shape entry).mp like
      refine ⟨apart, extends_refl cells, read_bound cells index entry read, ?_⟩
      rw [sketch_read cells apart.earlier index entry read, label, children]
  | none =>
      have new := (find_none cells shape).mp found
      have earlier := earlier_push cells shape apart.earlier below
      have grown := extends_push cells shape
      refine ⟨⟨earlier, ?_⟩, grown, by simp, ?_⟩
      · intro i j a b readA readB like
        rcases read_push cells i shape a readA with oldA | ⟨rfl, rfl⟩
        · rcases read_push cells j shape b readB with oldB | ⟨rfl, rfl⟩
          · exact apart.single i j a b oldA oldB like
          · exact absurd (alike_symm a b like) (by simp [new i a oldA])
        · rcases read_push cells j a b readB with oldB | ⟨rfl, -⟩
          · exact absurd like (by simp [new j b oldB])
          · rfl
      · rw [sketch_read _ earlier cells.size shape Array.getElem?_push_size]
        refine congrArg _ (List.map_congr_left fun child isChild => ?_)
        exact sketch_extends cells _ apart.earlier earlier grown child (below child isChild)

-- A table that another one has been interned into, and where its entries are found.
structure Merges (into cells known : Cells T σ) (places : Array Nat) : Prop where
  apart : known.Apart
  grown : into.Extends known
  size : places.size = cells.size
  found : ∀ index, index < cells.size →
    places.getD index 0 < known.size ∧ known.sketch (places.getD index 0) = cells.sketch index

theorem intern_all_merges (into cells : Cells T σ) (apart : into.Apart) (earlier : cells.Earlier) :
    into.Merges cells (internAll into cells).1 (internAll into cells).2 := by
  induction cells using push_induction with
  | empty => exact ⟨apart, extends_refl into, rfl, by simp⟩
  | push cells fresh ih =>
      obtain ⟨before, below⟩ := earlier_of_push cells fresh earlier
      have merged := ih before
      rw [intern_all_push]
      generalize internAll into cells = done at merged ⊢
      obtain ⟨known, places⟩ := done
      have inside : ∀ child ∈ (fresh.map (places.getD · 0)).children, child < known.size := by
        rw [Shape.children_map]
        intro child isChild
        obtain ⟨old, isOld, rfl⟩ := List.mem_map.mp isChild
        exact (merged.found old (below old isOld)).1
      have interned := intern_node known merged.apart _ inside
      refine ⟨interned.apart, extends_trans into known _ merged.grown interned.grown, by simp [merged.size], ?_⟩
      intro index bound
      rw [Array.size_push] at bound
      by_cases last : index = cells.size
      · have here : (places.push (known.intern (fresh.map (places.getD · 0))).2).getD index 0 =
            (known.intern (fresh.map (places.getD · 0))).2 := by
          rw [last, ← merged.size, Array.getD_eq_getD_getElem?, Array.getElem?_push_size, Option.getD_some]
        refine ⟨here ▸ interned.bound, ?_⟩
        rw [here, interned.sketch, last, sketch_read _ earlier cells.size fresh Array.getElem?_push_size, Shape.label_map,
          Shape.children_map, List.map_map]
        refine congrArg _ (List.map_congr_left fun child isChild => ?_)
        have old := below child isChild
        exact (merged.found child old).2.trans
          (sketch_extends cells _ before earlier (extends_push cells fresh) child old).symm
      · have older : index < cells.size := by omega
        have there : (places.push (known.intern (fresh.map (places.getD · 0))).2).getD index 0 = places.getD index 0 := by
          simp [Array.getD_eq_getD_getElem?, Array.getElem?_push, merged.size, last]
        obtain ⟨within, same⟩ := merged.found index older
        rw [there]
        refine ⟨Nat.lt_of_lt_of_le within interned.grown.size, ?_⟩
        rw [sketch_extends known _ merged.apart.earlier interned.apart.earlier interned.grown _ within, same,
          sketch_extends cells _ before earlier (extends_push cells fresh) index older]

end

end Cells

namespace Graph

variable [Numeric T] [Discerning T]

def sketch (graph : Graph T σ) : Sketch T := graph.fold Shape.sketch Cells.empty

theorem same_iff_sketch (graph other : Graph T σ) (earlier : graph.cells.Earlier) (later : other.cells.Earlier)
    (rooted : graph.cells ≠ #[]) (planted : other.cells ≠ #[]) :
    graph.same other = true ↔ graph.sketch = other.sketch := by
  have first := Cells.intern_all_merges #[] graph.cells Cells.apart_empty earlier
  have second := Cells.intern_all_merges _ other.cells first.apart later
  have root (cells into known : Cells T σ) (places : Array Nat) (filled : cells ≠ #[])
      (merged : into.Merges cells known places) : places.back? = some (places.getD cells.top 0) := by
    have inside : cells.top < places.size := merged.size ▸ Cells.top_bound cells filled
    rw [Array.back?, merged.size, Array.getD_eq_getD_getElem?]
    change places[cells.top]? = some (places[cells.top]?.getD 0)
    rw [Array.getElem?_eq_getElem inside]
    rfl
  obtain ⟨inside, sketched⟩ := first.found _ (Cells.top_bound _ rooted)
  obtain ⟨within, drawn⟩ := second.found _ (Cells.top_bound _ planted)
  have kept := Cells.sketch_extends _ _ first.apart.earlier second.apart.earlier second.grown _ inside
  have same : graph.same other = true ↔
      (Cells.internAll #[] graph.cells).2.getD graph.cells.top 0 =
        (Cells.internAll (Cells.internAll #[] graph.cells).1 other.cells).2.getD other.cells.top 0 := by
    simp only [Graph.same, decide_eq_true_eq, root _ _ _ _ rooted first, root _ _ _ _ planted second, Option.some.injEq]
  rw [same, sketch, sketch, fold_top, fold_top]
  change _ ↔ graph.cells.sketch graph.cells.top = other.cells.sketch other.cells.top
  rw [← sketched, ← drawn, ← kept]
  constructor
  · exact fun place => congrArg _ place
  · exact Cells.sketch_apart _ second.apart _ _ (Nat.lt_of_lt_of_le inside second.grown.size) within

end Graph

end Formula
