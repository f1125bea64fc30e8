import Formula.Proofs.Graph.Stable

/-!
What one finds, in the table that a pass leaves, at the place where an entry went: the entry itself,
one like it, or what a rule made of it. So two meanings that agree along the rules of a pass agree
before and after it.
-/

set_option autoImplicit false

namespace Formula

variable {T σ α : Type} [Numeric T]

namespace Rewrite

theorem rule_extends (cells more : Cells T σ) (grown : cells.Extends more) (host : σ) (shape : Shape T σ Nat)
    (below : ∀ child ∈ shape.children, child < cells.size) (replacement : Replacement T σ)
    (rule : Rule cells host shape replacement) : Rule more host shape replacement := by
  have agree (child : Nat) (isChild : child ∈ shape.children) : more.constantAt? child = cells.constantAt? child :=
    Cells.constant_of_read more cells child child (grown.read child (below child isChild))
  cases rule with
  | unary op operand span a value known computed =>
      exact .unary op operand span a value ((agree _ (by simp [Shape.children])).trans known) computed
  | binary op left right span a b value leftKnown rightKnown computed =>
      exact .binary op left right span a b value ((agree _ (by simp [Shape.children])).trans leftKnown)
        ((agree _ (by simp [Shape.children])).trans rightKnown) computed
  | left op left right span a effect leftKnown rightOpen identity =>
      exact .left op left right span a effect ((agree _ (by simp [Shape.children])).trans leftKnown)
        ((agree _ (by simp [Shape.children])).trans rightOpen) identity
  | right op left right span b effect leftOpen rightKnown identity =>
      exact .right op left right span b effect ((agree _ (by simp [Shape.children])).trans leftOpen)
        ((agree _ (by simp [Shape.children])).trans rightKnown) identity
  | noop conversion operand span noop => exact .noop conversion operand span noop
  | convert conversion operand span a value known computed =>
      exact .convert conversion operand span a value ((agree _ (by simp [Shape.children])).trans known) computed
  | call routine args span values value foldable known computed =>
      have same : constants? more args = constants? cells args := by
        simpa using constants_map cells more (fun arg => arg) args agree
      exact .call routine args span values value foldable (same.trans known) computed
  | member source value readOnly computed => exact .member source value readOnly computed
  | conditional condition accepted rejected a known =>
      exact .conditional condition accepted rejected a ((agree _ (by simp [Shape.children])).trans known)

end Rewrite

namespace Cells

def Holds (cells : Cells T σ) (place : Nat) (shape : Shape T σ Nat) : Prop :=
  ∃ entry, cells[place]? = some entry ∧ (entry = shape ∨ alike shape entry = true)

inductive Arrived (cells : Cells T σ) (shape : Shape T σ Nat) (place : Nat) : Prop
  | kept (held : cells.Holds place shape)
  | existing (host : σ) (rule : Rewrite.Rule cells host shape (.existing place))
  | fresh (host : σ) (node : Shape T σ Nat) (rule : Rewrite.Rule cells host shape (.fresh node))
      (held : cells.Holds place node)

theorem holds_extends (cells more : Cells T σ) (grown : cells.Extends more) (place : Nat) (shape : Shape T σ Nat)
    (held : cells.Holds place shape) : more.Holds place shape := by
  obtain ⟨entry, read, like⟩ := held
  exact ⟨entry, (grown.read place (read_bound cells place entry read)).trans read, like⟩

theorem arrived_extends (cells more : Cells T σ) (grown : cells.Extends more) (shape : Shape T σ Nat)
    (below : ∀ child ∈ shape.children, child < cells.size) (place : Nat) (arrived : cells.Arrived shape place) :
    more.Arrived shape place := by
  cases arrived with
  | kept held => exact .kept (holds_extends cells more grown place shape held)
  | existing host rule => exact .existing host (Rewrite.rule_extends cells more grown host shape below _ rule)
  | fresh host node rule held =>
      exact .fresh host node (Rewrite.rule_extends cells more grown host shape below _ rule)
        (holds_extends cells more grown place node held)

theorem shared_holds (cells next : Cells T σ) (shape : Shape T σ Nat) (place : Nat)
    (shared : Shared cells shape next place) : next.Holds place shape := by
  cases shared with
  | found _ entry read like => exact ⟨entry, read, .inr like⟩
  | pushed new => exact ⟨shape, Array.getElem?_push_size, .inl rfl⟩

theorem carried_arrived (cells next : Cells T σ) (shape : Shape T σ Nat) (host : σ) (place : Nat)
    (below : ∀ child ∈ shape.children, child < cells.size) (carried : Carried cells shape host next place) :
    next.Arrived shape place := by
  cases carried with
  | kept _ _ undecided shared => exact .kept (shared_holds cells next shape place shared)
  | existing _ rule => exact .existing host rule
  | fresh node _ _ rule shared =>
      exact .fresh host node (Rewrite.rule_extends cells next (shared_extends cells next node place shared) host shape
        below _ rule) (shared_holds cells next node place shared)

end Cells

namespace Pass

theorem carry_all_sound (cells : Cells T σ) (host : σ) (earlier : cells.Earlier) :
    (carryAll cells host).1.Kept (fun _ => True) cells :=
  carry_all_kept _ (fun _ _ _ _ _ _ => trivial) cells host earlier fun _ _ _ => trivial

theorem carry_all_arrived (cells : Cells T σ) (host : σ) (earlier : cells.Earlier) :
    ∀ (index : Nat) (shape : Shape T σ Nat), cells[index]? = some shape →
      (carryAll cells host).1.cells.Arrived (shape.map (carryAll cells host).1.placeOf)
        ((carryAll cells host).1.placeOf index) := by
  induction cells using Cells.push_induction with
  | empty => simp
  | push cells fresh ih =>
      obtain ⟨before, below⟩ := Cells.earlier_of_push cells fresh earlier
      have kept := carry_all_sound cells host before
      have old := ih before
      rw [carry_all_push]
      generalize (carryAll cells host).2 = later at old ⊢
      generalize (carryAll cells host).1 = pass at kept old ⊢
      obtain ⟨place, places, carried⟩ := carry_carried pass fresh later
      have moved (shape : Shape T σ Nat) (inside : ∀ child ∈ shape.children, child < cells.size) :
          shape.map (pass.carry fresh later).1.placeOf = shape.map pass.placeOf :=
        Shape.map_congr _ _ shape fun child isChild =>
          place_old pass _ place child places (kept.size ▸ inside child isChild)
      have within (shape : Shape T σ Nat) (inside : ∀ child ∈ shape.children, child < cells.size) :
          ∀ child ∈ (shape.map pass.placeOf).children, child < pass.cells.size := by
        intro child isChild
        rw [Shape.children_map] at isChild
        obtain ⟨oldChild, isOldChild, rfl⟩ := List.mem_map.mp isChild
        exact kept.bound oldChild (inside oldChild isOldChild)
      intro index shape read
      rcases Cells.read_push cells index fresh shape read with isOld | ⟨rfl, rfl⟩
      · have bound := Cells.read_bound cells index shape isOld
        have inside : ∀ child ∈ shape.children, child < cells.size := fun child isChild =>
          Nat.lt_trans (before index shape isOld child isChild) bound
        rw [moved shape inside, place_old pass _ place index places (kept.size ▸ bound)]
        exact Cells.arrived_extends _ _ (Cells.carried_extends _ _ _ _ _ carried) _ (within shape inside) _
          (old index shape isOld)
      · rw [moved shape below, ← kept.size, place_new pass _ place places]
        exact Cells.carried_arrived _ _ _ _ _ (within shape below) carried

theorem carry_all_borrows (cells : Cells T σ) (host : σ) (earlier : cells.Earlier) (borrowed : Borrowed T σ)
    (uses : (carryAll cells host).1.cells.Borrows borrowed) : cells.Borrows borrowed := by
  have kept := carry_all_kept (fun shape => ∀ used, shape.borrowed? = some used → cells.Borrows used)
    (fun _ _ shape fresh rule _ used same => absurd same (by
      rw [Shape.outline, Shape.borrowed_map, (Rewrite.rule_fresh _ _ shape fresh rule).2]
      simp))
    cells host earlier fun index shape read used same =>
      ⟨index, shape, read, (Shape.borrowed_map _ shape).symm.trans same⟩
  obtain ⟨index, shape, read, same⟩ := uses
  exact kept.every index shape read borrowed ((Shape.borrowed_map _ shape).trans same)

end Pass

def Replacement.worth (layer : Shape T σ α → α) (known : Nat → α) : Replacement T σ → α
  | .existing index => known index
  | .fresh shape => layer (shape.map known)

section

variable (layer : Shape T σ α → α) (fallback : α) (related : α → α → Prop)

-- A relation between what nodes are worth that nodes carry on from their children.
structure Respects : Prop where
  refl : ∀ a, related a a
  trans : ∀ a b c, related a b → related b c → related a c
  congr : ∀ (shape : Shape T σ Nat) (f g : Nat → α), (∀ child ∈ shape.children, related (f child) (g child)) →
    related (layer (shape.map f)) (layer (shape.map g))

def RespectsLike (allowed : Borrowed T σ → Prop) : Prop :=
  ∀ (a b : Shape T σ Nat), (∀ borrowed, a.borrowed? = some borrowed → allowed borrowed) →
    (∀ borrowed, b.borrowed? = some borrowed → allowed borrowed) → Cells.alike a b = true →
    ∀ known, related (layer (a.map known)) (layer (b.map known))

theorem holds_related (respects : Respects layer related) (allowed : Borrowed T σ → Prop)
    (like : RespectsLike layer related allowed) (cells : Cells T σ) (earlier : cells.Earlier)
    (uses : ∀ borrowed, cells.Borrows borrowed → allowed borrowed) (shape : Shape T σ Nat)
    (here : ∀ borrowed, shape.borrowed? = some borrowed → allowed borrowed) (place : Nat)
    (held : cells.Holds place shape) :
    related (layer (shape.map (cells.worth layer fallback))) (cells.worth layer fallback place) := by
  obtain ⟨entry, read, same⟩ := held
  rw [Cells.worth_read layer fallback cells earlier place entry read]
  rcases same with rfl | alike
  · exact respects.refl _
  · exact like shape entry here (fun borrowed used => uses borrowed ⟨place, entry, read, used⟩) alike _

def RespectsRules (cells : Cells T σ) (pass : Pass T σ) : Prop :=
  ∀ (index : Nat) (shape : Shape T σ Nat), cells[index]? = some shape → ∀ state replacement,
    Rewrite.Rule pass.cells state (shape.map pass.placeOf) replacement →
    related (layer ((shape.map pass.placeOf).map (pass.cells.worth layer fallback)))
      (replacement.worth layer (pass.cells.worth layer fallback))

variable (cells : Cells T σ) (host : σ)

theorem carry_all_related (respects : Respects layer related) (like : RespectsLike layer related cells.Borrows)
    (earlier : cells.Earlier)
    (rules : RespectsRules layer fallback related cells (Pass.carryAll cells host).1)
    (index : Nat) (bound : index < cells.size) :
    related (cells.worth layer fallback index)
      ((Pass.carryAll cells host).1.cells.worth layer fallback ((Pass.carryAll cells host).1.placeOf index)) := by
  have uses := Pass.carry_all_borrows cells host earlier
  have after := (Pass.carry_all_sound cells host earlier).earlier
  have arrivals := Pass.carry_all_arrived cells host earlier
  generalize (Pass.carryAll cells host).1 = pass at uses after arrivals rules ⊢
  apply Cells.entry_induction cells earlier _ index bound
  intro index shape read children
  have here : ∀ borrowed, (shape.map pass.placeOf).borrowed? = some borrowed → cells.Borrows borrowed := by
    rw [Shape.borrowed_map]
    exact fun borrowed used => ⟨index, shape, read, used⟩
  have moved := respects.congr shape _ _ children
  rw [Cells.worth_read layer fallback cells earlier index shape read]
  refine respects.trans _ _ _ moved ?_
  rw [← Shape.map_map]
  cases arrivals index shape read with
  | kept held => exact holds_related layer fallback related respects _ like _ after uses _ here _ held
  | existing later fires => exact rules index shape read later _ fires
  | fresh later node fires held =>
      have nothing : ∀ borrowed, node.borrowed? = some borrowed → cells.Borrows borrowed := by
        simp [(Rewrite.rule_fresh _ later _ node fires).2]
      exact respects.trans _ _ _ (rules index shape read later _ fires)
        (holds_related layer fallback related respects _ like _ after uses node nothing _ held)

theorem Graph.optimized_related [SymmetricSame T] (graph : Graph T σ) (respects : Respects layer related)
    (like : RespectsLike layer related graph.cells.Borrows) (earlier : graph.cells.Earlier)
    (settled : graph.cells.EarlySettled)
    (rules : RespectsRules layer fallback related graph.cells (Pass.carryAll graph.cells host).1) :
    related (graph.fold layer fallback) ((graph.optimized host).1.fold layer fallback) := by
  rw [optimized_passed graph host earlier settled]
  rcases passed_cells graph host earlier settled with ⟨same, -⟩ | ⟨inside, passed⟩
  · rw [same]
    exact respects.refl _
  · have sound := Pass.carry_all_sound graph.cells host earlier
    rw [passed, fold_top, Cells.fold_of_cells layer fallback _ sound.earlier _ (sound.bound _ inside)]
    exact carry_all_related layer fallback related graph.cells host respects like earlier rules _ inside

end

end Formula
