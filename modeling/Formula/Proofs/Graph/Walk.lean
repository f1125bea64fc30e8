import Formula.Proofs.Graph.Arrival
import Formula.Proofs.Graph.Compiled

/-!
A pass over the graph of a tree, seen from the tree. The pass walks it bottom-up, the children of a
node from left to right and then the node, all cases of a conditional included; only a registered
constant that was met before is not carried over again.
-/

set_option autoImplicit false

namespace Formula

variable {T σ : Type} [Numeric T]

theorem Cells.alike_children (a b : Shape T σ Nat) (like : alike a b = true) : a.children = b.children := by
  cases a <;> cases b <;> simp_all [alike, Shape.children]

namespace Pass

-- The pass carries an expression over, whose root stands at this place of the old table, and leaves
-- itself and the host like this.
mutual
inductive Walks : Expr T σ → Pass T σ × σ → Nat → Pass T σ × σ → Prop
  | known (value : T) (name : Option String) (state : Pass T σ × σ) (index : Nat) (bound : index < state.1.places.size)
      (held : state.1.cells.Holds (state.1.placeOf index) (.constant value name)) :
      Walks (.node (.constant value name)) state index state
  | node (shape : Shape T σ (Expr T σ)) (placed : Shape T σ Nat) (before between : Pass T σ × σ)
      (same : placed.outline = shape.outline) (below : WalksAll shape.children before placed.children between) :
      Walks (.node shape) before between.1.places.size (between.1.carry placed between.2)
inductive WalksAll : List (Expr T σ) → Pass T σ × σ → List Nat → Pass T σ × σ → Prop
  | nil (state : Pass T σ × σ) : WalksAll [] state [] state
  | cons (arg : Expr T σ) (rest : List (Expr T σ)) (before between after : Pass T σ × σ) (place : Nat)
      (places : List Nat) (first : Walks arg before place between) (later : WalksAll rest between places after) :
      WalksAll (arg :: rest) before (place :: places) after
end

structure Sound (pass : Pass T σ) : Prop where
  earlier : pass.cells.Earlier
  bound : ∀ index, index < pass.places.size → pass.placeOf index < pass.cells.size

omit [Numeric T] in
theorem start_sound : (start : Pass T σ).Sound := ⟨Cells.earlier_empty, by simp [start]⟩

structure Grown (pass later : Pass T σ) : Prop where
  cells : pass.cells.Extends later.cells
  size : pass.places.size ≤ later.places.size
  place : ∀ index, index < pass.places.size → later.placeOf index = pass.placeOf index

omit [Numeric T] in
theorem grown_refl (pass : Pass T σ) : pass.Grown pass := ⟨Cells.extends_refl _, Nat.le_refl _, fun _ _ => rfl⟩

omit [Numeric T] in
theorem grown_trans (first second third : Pass T σ) (before : first.Grown second) (after : second.Grown third) :
    first.Grown third :=
  ⟨Cells.extends_trans _ _ _ before.cells after.cells, Nat.le_trans before.size after.size, fun index bound =>
    (after.place index (Nat.lt_of_lt_of_le bound before.size)).trans (before.place index bound)⟩

omit [Numeric T] in
theorem moved_below (pass : Pass T σ) (sound : pass.Sound) (shape : Shape T σ Nat)
    (below : ∀ child ∈ shape.children, child < pass.places.size) :
    ∀ child ∈ (shape.map pass.placeOf).children, child < pass.cells.size := by
  intro child isChild
  rw [Shape.children_map] at isChild
  obtain ⟨old, isOld, rfl⟩ := List.mem_map.mp isChild
  exact sound.bound old (below old isOld)

theorem carry_grown (pass : Pass T σ) (sound : pass.Sound) (shape : Shape T σ Nat) (host : σ)
    (below : ∀ child ∈ shape.children, child < pass.places.size) :
    (pass.carry shape host).1.Sound ∧ pass.Grown (pass.carry shape host).1 ∧
      pass.places.size < (pass.carry shape host).1.places.size := by
  obtain ⟨place, places, carried⟩ := carry_carried pass shape host
  obtain ⟨earlier, -, placed⟩ := Cells.carried_every (fun _ => True) (fun _ _ _ _ _ _ => trivial) _ _ _ _ place
    sound.earlier (fun _ _ _ => trivial) (moved_below pass sound shape below) trivial carried
  have grown := Cells.carried_extends _ _ _ _ _ carried
  have size : (pass.carry shape host).1.places.size = pass.places.size + 1 := by rw [places, Array.size_push]
  have unmoved (index : Nat) := place_old pass (pass.carry shape host).1 place index places
  refine ⟨⟨earlier, fun index bound => ?_⟩, ⟨grown, by omega, unmoved⟩, by omega⟩
  by_cases last : index = pass.places.size
  · rw [last, place_new pass _ place places]
    exact placed
  · have older : index < pass.places.size := by omega
    rw [place_old pass _ place index places older]
    exact Nat.lt_of_lt_of_le (sound.bound index older) grown.size

mutual
theorem walks_grown (e : Expr T σ) (before after : Pass T σ × σ) (place : Nat) (walks : Walks e before place after)
    (sound : before.1.Sound) : after.1.Sound ∧ before.1.Grown after.1 ∧ place < after.1.places.size := by
  match walks with
  | .known value name _ _ bound held => exact ⟨sound, grown_refl _, bound⟩
  | .node shape placed _ between same below =>
      obtain ⟨inside, grown, bound⟩ := walks_all_grown _ _ _ _ below sound
      obtain ⟨next, later, here⟩ := carry_grown between.1 inside placed between.2 bound
      exact ⟨next, grown_trans _ _ _ grown later, here⟩
theorem walks_all_grown (args : List (Expr T σ)) (before after : Pass T σ × σ) (places : List Nat)
    (walks : WalksAll args before places after) (sound : before.1.Sound) :
    after.1.Sound ∧ before.1.Grown after.1 ∧ ∀ place ∈ places, place < after.1.places.size := by
  match walks with
  | .nil _ => exact ⟨sound, grown_refl _, by simp⟩
  | .cons arg rest _ between _ place places first later =>
      obtain ⟨inside, grown, bound⟩ := walks_grown arg before between place first sound
      obtain ⟨next, further, bounds⟩ := walks_all_grown rest between after places later inside
      refine ⟨next, grown_trans _ _ _ grown further, fun other member => ?_⟩
      rcases List.mem_cons.mp member with rfl | member
      · exact Nat.lt_of_lt_of_le bound further.size
      · exact bounds other member
end

theorem walks_all_length (args : List (Expr T σ)) (before after : Pass T σ × σ) (places : List Nat)
    (walks : WalksAll args before places after) : places.length = args.length := by
  match walks with
  | .nil _ => rfl
  | .cons arg rest _ between _ place places _ later =>
      exact congrArg Nat.succ (walks_all_length rest between after places later)

section

variable (allowed : Borrowed T σ → Prop) (means : String → T → Prop)
  (single : ∀ name a b, means name a → means name b → a = b) (host : σ)

theorem constant_arrived (cells : Cells T σ) (earlier : cells.Earlier) (index : Nat) (value : T) (name : Option String)
    (read : cells[index]? = some (.constant value name)) :
    (carryAll cells host).1.cells.Holds ((carryAll cells host).1.placeOf index) (.constant value name) := by
  have arrived := carry_all_arrived cells host earlier index _ read
  generalize target : ((.constant value name : Shape T σ Nat).map (carryAll cells host).1.placeOf) = shape at arrived
  obtain rfl : .constant value name = shape := target
  cases arrived with
  | kept held => exact held
  | existing _ rule => cases rule
  | fresh _ _ rule => cases rule

include single in
theorem constant_walks (listing : Listing T σ) (sound : listing.Sound allowed means) (value : T) (name : Option String)
    (within : Shape.Within allowed means (.constant value name : Shape T σ (Expr T σ))) :
    Walks (.node (.constant value name)) (carryAll listing.cells host) (listing.pushConstant value name).2
      (carryAll (listing.pushConstant value name).1.cells host) := by
  have size := (carry_all_sound listing.cells host sound.earlier).size
  have pushed : Walks (.node (.constant value name)) (carryAll listing.cells host) listing.cells.size
      (carryAll (listing.cells.push (.constant value name)) host) := by
    rw [carry_all_push, ← size]
    exact .node (.constant value name) (.constant value name) _ _ rfl (.nil _)
  cases name with
  | none => exact pushed
  | some name =>
      cases found : listing.named.lookup name with
      | none => simpa only [Listing.pushConstant, found] using pushed
      | some index =>
          obtain ⟨other, read, same⟩ := sound.named name index found
          obtain rfl := single name other value same (within.2 value name rfl)
          have bound := Cells.read_bound listing.cells index _ read
          have walks := Walks.known other (some name) (carryAll listing.cells host) index (size ▸ bound)
            (constant_arrived host listing.cells sound.earlier index other (some name) read)
          simpa only [Listing.pushConstant, found] using walks

theorem all_walks (args : List (Expr T σ)) (within : ∀ arg ∈ args, Expr.Every (Shape.Within allowed means) arg)
    (each : ∀ arg ∈ args, ∀ listing : Listing T σ, listing.Sound allowed means →
      Walks arg (carryAll listing.cells host) (listing.add arg).2 (carryAll (listing.add arg).1.cells host))
    (listing : Listing T σ) (sound : listing.Sound allowed means) :
    WalksAll args (carryAll listing.cells host) (listing.addAll args).2
      (carryAll (listing.addAll args).1.cells host) := by
  induction args generalizing listing with
  | nil => exact .nil _
  | cons arg rest ih =>
      have written := Listing.add_written allowed means arg (within arg (by simp)) listing sound
      have first := each arg (by simp) listing sound
      have later := ih (fun other member => within other (by simp [member]))
        (fun other member => each other (by simp [member])) (listing.add arg).1 written.sound
      exact .cons arg rest _ _ _ _ _ first later

include single in
theorem add_walks (e : Expr T σ) (within : e.Every (Shape.Within allowed means)) (listing : Listing T σ)
    (sound : listing.Sound allowed means) :
    Walks e (carryAll listing.cells host) (listing.add e).2 (carryAll (listing.add e).1.cells host) := by
  induction e using Expr.induction_on_children generalizing listing with
  | step shape ih =>
      obtain ⟨_, here, below⟩ := within
      by_cases constant : ∃ value name, shape = .constant value name
      · obtain ⟨value, name, rfl⟩ := constant
        exact constant_walks allowed means single host listing sound value name here
      · obtain ⟨placed, added, children, -, same⟩ :=
          Listing.add_node listing shape fun value name same => constant ⟨value, name, same⟩
        have written := Listing.all_written allowed means shape.children
          (fun arg member => Listing.add_written allowed means arg (below arg member)) listing sound
        have walks := all_walks allowed means host shape.children below
          (fun arg member => ih arg member (below arg member)) listing sound
        have outline : placed.outline = shape.outline := same Unit _ _ (by simp [walks_all_length _ _ _ _ walks])
        have size := (carry_all_sound (listing.addAll shape.children).1.cells host written.sound.earlier).size
        rw [added]
        simp only [Listing.push]
        rw [carry_all_push, ← size]
        exact .node shape placed _ _ outline (children ▸ walks)

end

end Pass

theorem Graph.of_expr_walks (allowed : Borrowed T σ → Prop) (means : String → T → Prop)
    (single : ∀ name a b, means name a → means name b → a = b) (host : σ) (e : Expr T σ)
    (within : e.Every (Shape.Within allowed means)) :
    Pass.Walks e (Pass.start, host) (ofExpr e).cells.top (Pass.carryAll (ofExpr e).cells host) := by
  have walks := Pass.add_walks allowed means single host e within ⟨#[], []⟩ (Listing.empty_sound allowed means)
  rwa [Listing.root_last] at walks

end Formula
