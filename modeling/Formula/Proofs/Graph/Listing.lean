import Formula.Proofs.Graph.Normal

set_option autoImplicit false

namespace Formula

variable {T σ : Type}

inductive Expr.Every (holds : Shape T σ (Expr T σ) → Prop) : Expr T σ → Prop
  | node (shape : Shape T σ (Expr T σ)) (here : holds shape) (below : ∀ child ∈ shape.children, Every holds child) :
      Every holds (.node shape)

theorem Expr.every_imp (holds weaker : Shape T σ (Expr T σ) → Prop) (imp : ∀ shape, holds shape → weaker shape)
    (e : Expr T σ) (every : e.Every holds) : e.Every weaker := by
  induction every with
  | node shape here below ih => exact .node shape (imp shape here) ih

section

variable (allowed : Borrowed T σ → Prop) (means : String → T → Prop)

def Shape.Within {ι : Type} (shape : Shape T σ ι) : Prop :=
  (∀ borrowed, shape.borrowed? = some borrowed → allowed borrowed) ∧
    ∀ value name, shape = .constant value (some name) → means name value

namespace Listing

structure Sound (listing : Listing T σ) : Prop where
  earlier : listing.cells.Earlier
  allowed : ∀ borrowed, listing.cells.Borrows borrowed → allowed borrowed
  named : ∀ name index, listing.named.lookup name = some index →
    ∃ value, listing.cells[index]? = some (.constant value (some name)) ∧ means name value

structure Written (before : Listing T σ) (e : Expr T σ) (after : Listing T σ) (place : Nat) : Prop where
  sound : after.Sound allowed means
  grown : before.cells.Extends after.cells
  bound : place < after.cells.size
  worth : (∀ name a b, means name a → means name b → a = b) → ∀ (α : Type) (layer : Shape T σ α → α) (fallback : α),
    after.cells.worth layer fallback place = e.fold layer

structure WrittenAll (before : Listing T σ) (args : List (Expr T σ)) (after : Listing T σ) (places : List Nat) :
    Prop where
  sound : after.Sound allowed means
  grown : before.cells.Extends after.cells
  bound : ∀ place ∈ places, place < after.cells.size
  worth : (∀ name a b, means name a → means name b → a = b) → ∀ (α : Type) (layer : Shape T σ α → α) (fallback : α),
    places.map (after.cells.worth layer fallback) = args.map (Expr.fold layer)

theorem empty_sound : (⟨#[], []⟩ : Listing T σ).Sound allowed means := by
  refine ⟨Cells.earlier_empty, ?_, by simp⟩
  rintro borrowed ⟨index, shape, read, -⟩
  simp at read

theorem sound_push (listing : Listing T σ) (shape : Shape T σ Nat) (sound : listing.Sound allowed means)
    (below : ∀ child ∈ shape.children, child < listing.cells.size)
    (uses : ∀ borrowed, shape.borrowed? = some borrowed → allowed borrowed) :
    (listing.push shape).1.Sound allowed means := by
  refine ⟨Cells.earlier_push _ shape sound.earlier below, ?_, ?_⟩
  · intro borrowed borrows
    rcases (Cells.borrows_push listing.cells shape borrowed).mp borrows with old | new
    · exact sound.allowed borrowed old
    · exact uses borrowed new
  · intro name index found
    obtain ⟨value, read, worth⟩ := sound.named name index found
    have bound := Cells.read_bound listing.cells index _ read
    exact ⟨value, (Cells.read_push_old listing.cells index shape bound).trans read, worth⟩

theorem constant_written (listing : Listing T σ) (value : T) (name : Option String)
    (sound : listing.Sound allowed means)
    (within : Shape.Within allowed means (.constant value name : Shape T σ (Expr T σ))) :
    Written allowed means listing (.node (.constant value name)) (listing.pushConstant value name).1
      (listing.pushConstant value name).2 := by
  have pushed := sound_push allowed means listing (.constant value name) sound (by simp [Shape.children])
    (by simp [Shape.borrowed?])
  have grown := Cells.extends_push listing.cells (.constant value name)
  have worth (α : Type) (layer : Shape T σ α → α) (fallback : α) :
      Cells.worth layer fallback (listing.cells.push (.constant value name)) listing.cells.size =
        (Expr.node (.constant value name)).fold layer := by
    rw [Cells.worth_push_new, Expr.fold_node]
    rfl
  cases name with
  | none => exact ⟨pushed, grown, by simp [pushConstant, push], fun _ => worth⟩
  | some name =>
      cases found : listing.named.lookup name with
      | some index =>
          obtain ⟨other, read, same⟩ := sound.named name index found
          rw [show listing.pushConstant value (some name) = (listing, index) by simp [pushConstant, found]]
          refine ⟨sound, Cells.extends_refl listing.cells, Cells.read_bound listing.cells index _ read, ?_⟩
          intro single α layer fallback
          obtain rfl := single name other value same (within.2 value name rfl)
          rw [Cells.worth_read layer fallback listing.cells sound.earlier index _ read, Expr.fold_node]
          rfl
      | none =>
          rw [show listing.pushConstant value (some name) = (⟨listing.cells.push (.constant value (some name)),
            (name, listing.cells.size) :: listing.named⟩, listing.cells.size) by simp [pushConstant, found]]
          refine ⟨⟨pushed.earlier, pushed.allowed, ?_⟩, grown, by simp, fun _ => worth⟩
          intro other index known
          rw [List.lookup_cons] at known
          by_cases same : other = name
          · subst same
            obtain rfl : listing.cells.size = index := by simpa using known
            exact ⟨value, Array.getElem?_push_size, within.2 value other rfl⟩
          · rw [beq_false_of_ne same] at known
            exact pushed.named other index known

theorem add_node (listing : Listing T σ) (shape : Shape T σ (Expr T σ))
    (other : ∀ value name, shape ≠ .constant value name) :
    ∃ placed : Shape T σ Nat, listing.add (.node shape) = (listing.addAll shape.children).1.push placed ∧
      placed.children = (listing.addAll shape.children).2 ∧ placed.borrowed? = shape.borrowed? ∧
      ∀ (α : Type) (f : Nat → α) (g : Expr T σ → α),
        (listing.addAll shape.children).2.map f = shape.children.map g → placed.map f = shape.map g := by
  cases shape with
  | constant value name => exact absurd rfl (other value name)
  | parameter index => exact ⟨.parameter index, rfl, rfl, rfl, fun _ _ _ _ => rfl⟩
  | member source => exact ⟨.member source, rfl, rfl, rfl, fun _ _ _ _ => rfl⟩
  | unary op operand span =>
      refine ⟨.unary op (listing.add operand).2 span, rfl, rfl, rfl, fun α f g same => ?_⟩
      simpa [Shape.map, Shape.children, addAll] using same
  | binary op left right span =>
      refine ⟨.binary op (listing.add left).2 ((listing.add left).1.add right).2 span, rfl, rfl, rfl,
        fun α f g same => ?_⟩
      simpa [Shape.map, Shape.children, addAll] using same
  | convert conversion operand span =>
      refine ⟨.convert conversion (listing.add operand).2 span, rfl, rfl, rfl, fun α f g same => ?_⟩
      simpa [Shape.map, Shape.children, addAll] using same
  | call routine args span =>
      refine ⟨.call routine (listing.addAll args).2 span, rfl, rfl, rfl, fun α f g same => ?_⟩
      simpa [Shape.map, Shape.children] using same
  | conditional condition accepted rejected =>
      refine ⟨.conditional (listing.add condition).2 ((listing.add condition).1.add accepted).2
        (((listing.add condition).1.add accepted).1.add rejected).2, rfl, rfl, rfl, fun α f g same => ?_⟩
      simpa [Shape.map, Shape.children, addAll] using same

theorem all_written (args : List (Expr T σ))
    (each : ∀ arg ∈ args, ∀ listing : Listing T σ, listing.Sound allowed means →
      Written allowed means listing arg (listing.add arg).1 (listing.add arg).2)
    (listing : Listing T σ) (sound : listing.Sound allowed means) :
    WrittenAll allowed means listing args (listing.addAll args).1 (listing.addAll args).2 := by
  induction args generalizing listing with
  | nil => exact ⟨sound, Cells.extends_refl listing.cells, by simp [addAll], fun _ _ _ _ => rfl⟩
  | cons arg rest ih =>
      have first := each arg (by simp) listing sound
      have later := ih (fun other member => each other (by simp [member])) (listing.add arg).1 first.sound
      refine ⟨later.sound, Cells.extends_trans _ _ _ first.grown later.grown, ?_, ?_⟩
      · intro place member
        rcases List.mem_cons.mp member with rfl | member
        · exact Nat.lt_of_lt_of_le first.bound later.grown.size
        · exact later.bound place member
      · intro single α layer fallback
        have kept := Cells.worth_extends layer fallback _ _ first.sound.earlier later.sound.earlier later.grown
          (listing.add arg).2 first.bound
        rw [addAll, List.map_cons, List.map_cons]
        exact congr (congrArg List.cons (kept.trans (first.worth single α layer fallback)))
          (later.worth single α layer fallback)

theorem add_written (e : Expr T σ) (within : e.Every (Shape.Within allowed means)) (listing : Listing T σ)
    (sound : listing.Sound allowed means) :
    Written allowed means listing e (listing.add e).1 (listing.add e).2 := by
  induction e using Expr.induction_on_children generalizing listing with
  | step shape ih =>
      obtain ⟨_, here, below⟩ := within
      by_cases constant : ∃ value name, shape = .constant value name
      · obtain ⟨value, name, rfl⟩ := constant
        exact constant_written allowed means listing value name sound here
      · have other : ∀ value name, shape ≠ .constant value name := fun value name same => constant ⟨value, name, same⟩
        obtain ⟨placed, added, children, borrowed, same⟩ := add_node listing shape other
        have all := all_written allowed means shape.children (fun arg member => ih arg member (below arg member))
          listing sound
        rw [added]
        refine ⟨sound_push allowed means _ placed all.sound (children ▸ all.bound) (borrowed ▸ here.1),
          Cells.extends_trans _ _ _ all.grown (Cells.extends_push _ placed), by simp [push], ?_⟩
        intro single α layer fallback
        rw [Expr.fold_node, ← same α _ _ (all.worth single α layer fallback)]
        exact Cells.worth_push_new layer fallback _ placed

theorem root_last (e : Expr T σ) :
    ((⟨#[], []⟩ : Listing T σ).add e).2 = ((⟨#[], []⟩ : Listing T σ).add e).1.cells.top := by
  obtain ⟨shape⟩ := e
  by_cases constant : ∃ value name, shape = .constant value name
  · obtain ⟨value, name, rfl⟩ := constant
    cases name <;> rfl
  · obtain ⟨placed, added, -⟩ := add_node ⟨#[], []⟩ shape fun value name same => constant ⟨value, name, same⟩
    rw [added]
    simp [push, Cells.top]

end Listing

namespace Graph

theorem of_expr_written (e : Expr T σ) (within : e.Every (Shape.Within allowed means)) :
    Listing.Written allowed means ⟨#[], []⟩ e ((⟨#[], []⟩ : Listing T σ).add e).1 (ofExpr e).cells.top := by
  have written := Listing.add_written allowed means e within ⟨#[], []⟩ (Listing.empty_sound allowed means)
  rwa [Listing.root_last] at written

theorem of_expr_fold {α : Type} (e : Expr T σ) (within : e.Every (Shape.Within allowed means))
    (single : ∀ name a b, means name a → means name b → a = b) (layer : Shape T σ α → α) (fallback : α) :
    (ofExpr e).fold layer fallback = e.fold layer := by
  rw [fold_top]
  exact (of_expr_written allowed means e within).worth single α layer fallback

theorem any_within (e : Expr T σ) : e.Every (Shape.Within (fun _ => True) fun _ _ => True) := by
  induction e using Expr.induction_on_children with
  | step shape ih => exact .node shape ⟨fun _ _ => trivial, fun _ _ _ => trivial⟩ ih

theorem of_expr_earlier (e : Expr T σ) : (ofExpr e).cells.Earlier :=
  (of_expr_written _ _ e (any_within e)).sound.earlier

theorem of_expr_rooted (e : Expr T σ) : (ofExpr e).cells ≠ #[] := by
  intro empty
  have bound := (of_expr_written _ _ e (any_within e)).bound
  exact absurd bound (by simp [show (⟨#[], []⟩ : Listing T σ).add e |>.1.cells = #[] from empty])

end Graph

end

end Formula
