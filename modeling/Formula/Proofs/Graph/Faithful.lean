import Formula.Proofs.Graph.Arrival

/-!
Meanings that optimizing may only extend. Where the meaning of a node is kept by every rule and by
taking a node for one like it, the optimized graph means what the graph means wherever that means
anything.
-/

set_option autoImplicit false

namespace Formula

variable {T σ V : Type}

def Refines (a b : Option V) : Prop := ∀ value, a = some value → b = some value

theorem refines_refl (a : Option V) : Refines a a := fun _ present => present

theorem refines_none (b : Option V) : Refines none b := fun _ present => absurd present (by simp)

theorem refines_trans (a b c : Option V) (first : Refines a b) (second : Refines b c) : Refines a c :=
  fun value present => second value (first value present)

theorem refines_of_eq (a b : Option V) (same : a = b) : Refines a b := same ▸ refines_refl a

theorem refines_bind {U : Type} (a b : Option U) (f g : U → Option V) (first : Refines a b)
    (later : ∀ value, Refines (f value) (g value)) : Refines (a.bind f) (b.bind g) := by
  intro result present
  obtain ⟨value, here, next⟩ := Option.bind_eq_some_iff.mp present
  rw [first value here]
  exact later value result next

section

variable [Numeric T]

-- A meaning of nodes that use only some things of their host.
structure Faithful (allowed : Borrowed T σ → Prop) (layer : Shape T σ (Option V) → Option V) : Prop where
  refines : ∀ (shape : Shape T σ Nat) (f g : Nat → Option V),
    (∀ child ∈ shape.children, Refines (f child) (g child)) → Refines (layer (shape.map f)) (layer (shape.map g))
  unnamed : ∀ value name, layer (.constant value name) = layer (.constant value none)
  alike : ∀ (a b : Shape T σ Nat) (known : Nat → Option V),
    (∀ borrowed, a.borrowed? = some borrowed → allowed borrowed) →
    (∀ borrowed, b.borrowed? = some borrowed → allowed borrowed) → Cells.alike a b = true →
    layer (a.map known) = layer (b.map known)
  rule : ∀ (cells : Cells T σ) (host : σ) (shape : Shape T σ Nat) (replacement : Replacement T σ)
    (known : Nat → Option V), (∀ borrowed, shape.borrowed? = some borrowed → allowed borrowed) →
    (∀ index value, cells.constantAt? index = some value → known index = layer (.constant value none)) →
    Rewrite.Rule cells host shape replacement → Refines (layer (shape.map known)) (replacement.worth layer known)

variable (layer : Shape T σ (Option V) → Option V)

theorem worth_constant (allowed : Borrowed T σ → Prop) (faithful : Faithful allowed layer) (cells : Cells T σ)
    (earlier : cells.Earlier) (index : Nat) (value : T) (known : cells.constantAt? index = some value) :
    cells.worth layer none index = layer (.constant value none) := by
  obtain ⟨name, read⟩ := Cells.constant_read cells index value known
  rw [Cells.worth_read layer none cells earlier index _ read]
  exact faithful.unnamed value name

theorem optimized_refines [SymmetricSame T] (graph : Graph T σ) (faithful : Faithful graph.cells.Borrows layer)
    (host : σ) (earlier : graph.cells.Earlier) (settled : graph.cells.EarlySettled) :
    Refines (graph.fold layer none) ((graph.optimized host).1.fold layer none) := by
  have after := (Pass.carry_all_sound graph.cells host earlier).earlier
  apply Graph.optimized_related layer none Refines host graph ⟨refines_refl, refines_trans, faithful.refines⟩ ?_ earlier
    settled
  · intro index shape read state replacement rule
    refine faithful.rule _ state _ replacement _ (fun borrowed uses => ?_)
      (worth_constant layer graph.cells.Borrows faithful _ after) rule
    rw [Shape.borrowed_map] at uses
    exact ⟨index, shape, read, uses⟩
  · exact fun a b usesA usesB like known => refines_of_eq _ _ (faithful.alike a b known usesA usesB like)

end

end Formula
