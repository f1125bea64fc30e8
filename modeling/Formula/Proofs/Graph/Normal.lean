import Formula.Proofs.Graph.Pass

set_option autoImplicit false

namespace Formula

variable {T σ : Type}

namespace Cells

def Borrows (cells : Cells T σ) (borrowed : Borrowed T σ) : Prop :=
  ∃ (index : Nat) (shape : Shape T σ Nat), cells[index]? = some shape ∧ shape.borrowed? = some borrowed

-- What is used before the host is running gives the same at any time.
def EarlySettled (cells : Cells T σ) : Prop :=
  ∀ borrowed, cells.Borrows borrowed → borrowed.isEarly = true → borrowed.Settled

structure Extends (cells more : Cells T σ) : Prop where
  size : cells.size ≤ more.size
  read : ∀ index, index < cells.size → more[index]? = cells[index]?

theorem extends_refl (cells : Cells T σ) : cells.Extends cells := ⟨Nat.le_refl _, fun _ _ => rfl⟩

theorem extends_push (cells : Cells T σ) (fresh : Shape T σ Nat) : cells.Extends (cells.push fresh) :=
  ⟨by simp, fun index bound => read_push_old cells index fresh bound⟩

theorem extends_trans (cells more most : Cells T σ) (first : cells.Extends more) (second : more.Extends most) :
    cells.Extends most :=
  ⟨Nat.le_trans first.size second.size, fun index bound =>
    (second.read index (Nat.lt_of_lt_of_le bound first.size)).trans (first.read index bound)⟩

theorem worth_extends {α : Type} (layer : Shape T σ α → α) (fallback : α) (cells more : Cells T σ)
    (earlier : cells.Earlier) (later : more.Earlier) (grown : cells.Extends more) (index : Nat)
    (bound : index < cells.size) : more.worth layer fallback index = cells.worth layer fallback index := by
  apply entry_induction cells earlier _ index bound
  intro index shape read ih
  have kept := (grown.read index (read_bound cells index shape read)).trans read
  rw [worth_read layer fallback cells earlier index shape read, worth_read layer fallback more later index shape kept]
  apply congrArg layer
  exact Shape.map_congr _ _ shape ih

theorem borrows_push (cells : Cells T σ) (fresh : Shape T σ Nat) (borrowed : Borrowed T σ) :
    Borrows (cells.push fresh) borrowed ↔ cells.Borrows borrowed ∨ fresh.borrowed? = some borrowed := by
  constructor
  · rintro ⟨index, shape, read, uses⟩
    rcases read_push cells index fresh shape read with old | ⟨-, rfl⟩
    · exact .inl ⟨index, shape, old, uses⟩
    · exact .inr uses
  · rintro (⟨index, shape, read, uses⟩ | uses)
    · have bound := read_bound cells index shape read
      exact ⟨index, shape, (read_push_old cells index fresh bound).trans read, uses⟩
    · exact ⟨cells.size, fresh, Array.getElem?_push_size, uses⟩

variable [Numeric T]

structure Normal (cells : Cells T σ) : Prop where
  earlier : cells.Earlier
  irreducible : ∀ (index : Nat) (shape : Shape T σ Nat), cells[index]? = some shape → Rewrite.Irreducible cells shape
  apart : ∀ (i j : Nat) (a b : Shape T σ Nat), cells[i]? = some a → cells[j]? = some b → alike a b = true → i = j

theorem alike_symm [SymmetricSame T] (a b : Shape T σ Nat) (like : alike a b = true) : alike b a = true := by
  cases a <;> cases b <;> simp_all [alike, Routine.identical, Member.identical]
  exact SymmetricSame.same_symm _ _ like

theorem normal_empty : Normal (#[] : Cells T σ) :=
  ⟨earlier_empty, by simp, by simp⟩

theorem normal_push [SymmetricSame T] (cells : Cells T σ) (fresh : Shape T σ Nat) (normal : cells.Normal)
    (below : ∀ child ∈ fresh.children, child < cells.size) (irreducible : Rewrite.Irreducible cells fresh)
    (new : ∀ (index : Nat) (entry : Shape T σ Nat), cells[index]? = some entry → alike fresh entry = false) :
    Normal (cells.push fresh) := by
  refine ⟨earlier_push cells fresh normal.earlier below, ?_, ?_⟩
  · intro index shape read
    rcases read_push cells index fresh shape read with old | ⟨rfl, rfl⟩
    · have inside : ∀ child ∈ shape.children, child < cells.size := fun child isChild =>
        Nat.lt_trans (normal.earlier index shape old child isChild) (read_bound cells index shape old)
      exact (Rewrite.irreducible_push cells fresh shape inside).mpr (normal.irreducible index shape old)
    · exact (Rewrite.irreducible_push cells shape shape below).mpr irreducible
  · intro i j a b readA readB like
    rcases read_push cells i fresh a readA with oldA | ⟨rfl, rfl⟩
    · rcases read_push cells j fresh b readB with oldB | ⟨rfl, rfl⟩
      · exact normal.apart i j a b oldA oldB like
      · have unlike := new i a oldA
        simp [alike_symm a b like] at unlike
    · rcases read_push cells j a b readB with oldB | ⟨rfl, rfl⟩
      · have unlike := new j b oldB
        simp [like] at unlike
      · rfl

theorem normal_of_push (cells : Cells T σ) (fresh : Shape T σ Nat) (normal : Normal (cells.push fresh)) :
    cells.Normal ∧ (∀ child ∈ fresh.children, child < cells.size) ∧ Rewrite.Irreducible cells fresh ∧
      ∀ (index : Nat) (entry : Shape T σ Nat), cells[index]? = some entry → alike fresh entry = false := by
  obtain ⟨earlier, below⟩ := earlier_of_push cells fresh normal.earlier
  have kept (index : Nat) (shape : Shape T σ Nat) (read : cells[index]? = some shape) :
      (cells.push fresh)[index]? = some shape :=
    (read_push_old cells index fresh (read_bound cells index shape read)).trans read
  have last : (cells.push fresh)[cells.size]? = some fresh := Array.getElem?_push_size
  refine ⟨⟨earlier, ?_, ?_⟩, below, ?_, ?_⟩
  · intro index shape read
    have inside : ∀ child ∈ shape.children, child < cells.size := fun child isChild =>
      Nat.lt_trans (earlier index shape read child isChild) (read_bound cells index shape read)
    have irreducible := normal.irreducible index shape (kept index shape read)
    exact (Rewrite.irreducible_push cells fresh shape inside).mp irreducible
  · exact fun i j a b readA readB => normal.apart i j a b (kept i a readA) (kept j b readB)
  · exact (Rewrite.irreducible_push cells fresh fresh below).mp (normal.irreducible cells.size fresh last)
  · intro index entry read
    have bound := read_bound cells index entry read
    cases like : alike fresh entry with
    | false => rfl
    | true =>
        have one := normal.apart cells.size index fresh entry last (kept index entry read) like
        omega

theorem shared_normal [SymmetricSame T] (cells next : Cells T σ) (shape : Shape T σ Nat) (place : Nat)
    (normal : cells.Normal) (below : ∀ child ∈ shape.children, child < cells.size)
    (irreducible : Rewrite.Irreducible cells shape) (shared : Shared cells shape next place) :
    next.Normal ∧ place < next.size := by
  cases shared with
  | found _ entry read like => exact ⟨normal, read_bound cells place entry read⟩
  | pushed new => exact ⟨normal_push cells shape normal below irreducible new, by simp⟩

theorem shared_extends (cells next : Cells T σ) (shape : Shape T σ Nat) (place : Nat)
    (shared : Shared cells shape next place) : cells.Extends next := by
  cases shared with
  | found _ entry read like => exact extends_refl cells
  | pushed new => exact extends_push cells shape

theorem shared_borrows (cells next : Cells T σ) (shape : Shape T σ Nat) (place : Nat)
    (shared : Shared cells shape next place) (borrowed : Borrowed T σ) (borrows : next.Borrows borrowed) :
    cells.Borrows borrowed ∨ shape.borrowed? = some borrowed := by
  cases shared with
  | found _ entry read like => exact .inl borrows
  | pushed new => exact (borrows_push cells shape borrowed).mp borrows

theorem carried_normal [SymmetricSame T] (cells next : Cells T σ) (shape : Shape T σ Nat) (host : σ) (place : Nat)
    (normal : cells.Normal) (below : ∀ child ∈ shape.children, child < cells.size)
    (settled : ∀ borrowed, shape.borrowed? = some borrowed → borrowed.isEarly = true → borrowed.Settled)
    (carried : Carried cells shape host next place) : next.Normal ∧ place < next.size := by
  cases carried with
  | kept _ _ undecided shared =>
      exact shared_normal cells next shape place normal below
        (Rewrite.undecided_irreducible cells host shape settled undecided) shared
  | existing _ rule => exact ⟨normal, below place (Rewrite.rule_existing cells host shape place rule)⟩
  | fresh node _ _ rule shared =>
      have inside : ∀ child ∈ node.children, child < cells.size := fun child isChild =>
        below child ((Rewrite.rule_fresh cells host shape node rule).1 child isChild)
      exact shared_normal cells next node place normal inside
        (Rewrite.replacement_irreducible cells host shape node rule) shared

theorem carried_extends (cells next : Cells T σ) (shape : Shape T σ Nat) (host : σ) (place : Nat)
    (carried : Carried cells shape host next place) : cells.Extends next := by
  cases carried with
  | kept _ _ undecided shared => exact shared_extends cells next shape place shared
  | existing _ rule => exact extends_refl cells
  | fresh node _ _ rule shared => exact shared_extends cells next node place shared

theorem carried_borrows (cells next : Cells T σ) (shape : Shape T σ Nat) (host : σ) (place : Nat)
    (carried : Carried cells shape host next place) (borrowed : Borrowed T σ) (borrows : next.Borrows borrowed) :
    cells.Borrows borrowed ∨ shape.borrowed? = some borrowed := by
  cases carried with
  | kept _ _ undecided shared => exact shared_borrows cells next shape place shared borrowed borrows
  | existing _ rule => exact .inl borrows
  | fresh node _ _ rule shared =>
      rcases shared_borrows cells next node place shared borrowed borrows with old | new
      · exact .inl old
      · simp [(Rewrite.rule_fresh cells host shape node rule).2] at new

omit [Numeric T] in
theorem map_apart (f : Nat → Nat) (xs ys : List Nat)
    (apart : ∀ x y, x ∈ xs → y ∈ ys → f x = f y → x = y) (same : xs.map f = ys.map f) : xs = ys := by
  induction xs generalizing ys with
  | nil => cases ys <;> simp_all
  | cons x rest ih =>
      cases ys with
      | nil => simp at same
      | cons y others =>
          obtain ⟨head, tail⟩ := List.cons.inj same
          have first : x = y := apart x y (by simp) (by simp) head
          have later := ih others (fun a b inA inB => apart a b (by simp [inA]) (by simp [inB])) tail
          rw [first, later]

theorem alike_renamed (cells : Cells T σ) (root : Nat) (a b : Shape T σ Nat)
    (insideA : ∀ child ∈ a.children, child ∈ cells.orderOf root)
    (insideB : ∀ child ∈ b.children, child ∈ cells.orderOf root)
    (like : alike (a.map (cells.renamed root)) (b.map (cells.renamed root)) = true) : alike a b = true := by
  have apart (x y : Nat) (member : y ∈ cells.orderOf root) (same : cells.renamed root x = cells.renamed root y) :
      x = y := renamed_apart cells root y x member same
  cases a <;> cases b <;> simp_all [alike, Shape.map, Shape.children]
  case unary.unary => exact apart _ _ insideB like.2
  case binary.binary => exact ⟨apart _ _ insideB.1 like.1.2, apart _ _ insideB.2 like.2⟩
  case convert.convert => exact apart _ _ insideB like.2
  case call.call => exact map_apart _ _ _ (fun x y _ member => apart x y (insideB y member)) like.2
  case conditional.conditional =>
    exact ⟨⟨apart _ _ insideB.1 like.1.1, apart _ _ insideB.2.1 like.1.2⟩, apart _ _ insideB.2.2 like.2⟩

omit [Numeric T] in
theorem reachable_borrows (cells : Cells T σ) (earlier : cells.Earlier) (root : Nat) (bound : root < cells.size)
    (borrowed : Borrowed T σ) (uses : (cells.reachable root).Borrows borrowed) : cells.Borrows borrowed := by
  obtain ⟨index, shape, read, used⟩ := uses
  obtain ⟨old, original, -, -, oldRead, rfl⟩ := reachable_entry cells earlier root bound index shape read
  exact ⟨old, original, oldRead, (Shape.borrowed_map _ original).symm.trans used⟩

theorem reachable_normal (cells : Cells T σ) (normal : cells.Normal) (root : Nat) (bound : root < cells.size) :
    (cells.reachable root).Normal := by
  have entry := reachable_entry cells normal.earlier root bound
  refine ⟨reachable_earlier cells normal.earlier root bound, ?_, ?_⟩
  · intro index shape read
    obtain ⟨old, original, member, rfl, oldRead, rfl⟩ := entry index shape read
    apply Rewrite.irreducible_moved cells _ _ original _ (normal.irreducible old original oldRead)
    intro child isChild
    have inside := order_child cells normal.earlier root old child bound member original oldRead isChild
    obtain ⟨childShape, childRead⟩ := order_read_exists cells normal.earlier root child bound inside
    exact constant_map cells _ child _ childShape _ childRead
      (reachable_moved cells normal.earlier root child bound inside childShape childRead)
  · intro i j a b readA readB like
    obtain ⟨oldA, originalA, memberA, rfl, oldReadA, rfl⟩ := entry i a readA
    obtain ⟨oldB, originalB, memberB, rfl, oldReadB, rfl⟩ := entry j b readB
    have inside (old : Nat) (original : Shape T σ Nat) (member : old ∈ cells.orderOf root)
        (read : cells[old]? = some original) : ∀ child ∈ original.children, child ∈ cells.orderOf root :=
      fun child isChild => order_child cells normal.earlier root old child bound member original read isChild
    have original := alike_renamed cells root originalA originalB (inside oldA originalA memberA oldReadA)
      (inside oldB originalB memberB oldReadB) like
    rw [normal.apart oldA oldB originalA originalB oldReadA oldReadB original]

end Cells

end Formula
