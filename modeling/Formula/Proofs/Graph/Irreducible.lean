import Formula.Proofs.Graph.Renumber
import Formula.Proofs.Graph.Rule

set_option autoImplicit false

namespace Formula

variable {T σ : Type}

namespace Cells

theorem constant_read (cells : Cells T σ) (index : Nat) (value : T) (known : cells.constantAt? index = some value) :
    ∃ name, cells[index]? = some (.constant value name) := by
  unfold constantAt? at known
  split at known
  · rename_i found name read
    obtain rfl := Option.some.inj known
    exact ⟨name, read⟩
  · exact absurd known (by simp)

theorem constant_of_read (cells more : Cells T σ) (index other : Nat)
    (same : cells[index]? = more[other]?) : cells.constantAt? index = more.constantAt? other := by
  simp only [constantAt?, same]

theorem constant_push_old (cells : Cells T σ) (fresh : Shape T σ Nat) (index : Nat) (bound : index < cells.size) :
    constantAt? (cells.push fresh) index = cells.constantAt? index :=
  constant_of_read _ cells index index (read_push_old cells index fresh bound)

theorem constant_map (cells more : Cells T σ) (index other : Nat) (shape : Shape T σ Nat) (f : Nat → Nat)
    (read : cells[index]? = some shape) (moved : more[other]? = some (shape.map f)) :
    more.constantAt? other = cells.constantAt? index := by
  simp only [constantAt?, read, moved]
  cases shape <;> rfl

end Cells

namespace Rewrite

variable [Numeric T]

-- No rule applies to the node, whatever the host is doing.
def Irreducible (cells : Cells T σ) (shape : Shape T σ Nat) : Prop :=
  ∀ host replacement, ¬ Rule cells host shape replacement

omit [Numeric T] in
theorem constants_map (cells more : Cells T σ) (f : Nat → Nat) (args : List Nat)
    (agree : ∀ arg ∈ args, more.constantAt? (f arg) = cells.constantAt? arg) :
    constants? more (args.map f) = constants? cells args := by
  unfold constants?
  induction args with
  | nil => rfl
  | cons arg rest ih =>
      rw [List.map_cons, List.mapM_cons, List.mapM_cons, agree arg (by simp),
        ih fun arg member => agree arg (by simp [member])]

omit [Numeric T] in
theorem constants_each (cells : Cells T σ) (args : List Nat) (values : List T)
    (known : constants? cells args = some values) :
    List.Forall₂ (fun arg value => cells.constantAt? arg = some value) args values := by
  unfold constants? at known
  induction args generalizing values with
  | nil =>
      obtain rfl := Option.some.inj known
      exact .nil
  | cons arg rest ih =>
      rw [List.mapM_cons] at known
      obtain ⟨value, here, later⟩ := Option.bind_eq_some_iff.mp known
      obtain ⟨others, there, same⟩ := Option.bind_eq_some_iff.mp later
      obtain rfl := Option.some.inj same
      exact .cons here (ih others there)

theorem rule_moved (cells more : Cells T σ) (f : Nat → Nat) (host : σ) (shape : Shape T σ Nat)
    (agree : ∀ child ∈ shape.children, more.constantAt? (f child) = cells.constantAt? child)
    (replacement : Replacement T σ) (rule : Rule more host (shape.map f) replacement) :
    ∃ original, Rule cells host shape original := by
  cases shape with
  | constant value name => cases rule
  | parameter index => cases rule
  | member source =>
      cases rule with
      | member _ value readOnly computed => exact ⟨_, .member source value readOnly computed⟩
  | unary op operand span =>
      have same := agree operand (by simp [Shape.children])
      cases rule with
      | unary _ _ _ a value known computed => exact ⟨_, .unary op operand span a value (same ▸ known) computed⟩
  | binary op left right span =>
      have sameLeft := agree left (by simp [Shape.children])
      have sameRight := agree right (by simp [Shape.children])
      cases rule with
      | binary _ _ _ _ a b value leftKnown rightKnown computed =>
          exact ⟨_, .binary op left right span a b value (sameLeft ▸ leftKnown) (sameRight ▸ rightKnown) computed⟩
      | left _ _ _ _ a effect leftKnown rightOpen identity =>
          exact ⟨_, .left op left right span a effect (sameLeft ▸ leftKnown) (sameRight ▸ rightOpen) identity⟩
      | right _ _ _ _ b effect leftOpen rightKnown identity =>
          exact ⟨_, .right op left right span b effect (sameLeft ▸ leftOpen) (sameRight ▸ rightKnown) identity⟩
  | convert conversion operand span =>
      have same := agree operand (by simp [Shape.children])
      cases rule with
      | noop _ _ _ noop => exact ⟨_, .noop conversion operand span noop⟩
      | convert _ _ _ a value known computed =>
          exact ⟨_, .convert conversion operand span a value (same ▸ known) computed⟩
  | call routine args span =>
      have same := constants_map cells more f args agree
      cases rule with
      | call _ _ _ values value foldable known computed =>
          exact ⟨_, .call routine args span values value foldable (same ▸ known) computed⟩
  | conditional condition accepted rejected =>
      have same := agree condition (by simp [Shape.children])
      cases rule with
      | conditional _ _ _ a known => exact ⟨_, .conditional condition accepted rejected a (same ▸ known)⟩

theorem irreducible_moved (cells more : Cells T σ) (f : Nat → Nat) (shape : Shape T σ Nat)
    (agree : ∀ child ∈ shape.children, more.constantAt? (f child) = cells.constantAt? child)
    (irreducible : Irreducible cells shape) : Irreducible more (shape.map f) := by
  intro host replacement rule
  obtain ⟨original, found⟩ := rule_moved cells more f host shape agree replacement rule
  exact irreducible host original found

theorem irreducible_push (cells : Cells T σ) (fresh shape : Shape T σ Nat)
    (below : ∀ child ∈ shape.children, child < cells.size) :
    Irreducible (cells.push fresh) shape ↔ Irreducible cells shape := by
  have agree : ∀ child ∈ shape.children, Cells.constantAt? (cells.push fresh) child = cells.constantAt? child :=
    fun child member => Cells.constant_push_old cells fresh child (below child member)
  have same : shape.map (fun child => child) = shape := Shape.map_same _ shape fun _ _ => rfl
  constructor
  · intro irreducible
    rw [← same]
    exact irreducible_moved _ cells _ shape (fun child member => (agree child member).symm) irreducible
  · intro irreducible
    rw [← same]
    exact irreducible_moved cells _ _ shape agree irreducible

-- What a node uses early gives the same in every state of the host, so a rule does not wait for one.
theorem rule_settled (cells : Cells T σ) (before now : σ) (shape : Shape T σ Nat) (replacement : Replacement T σ)
    (settled : ∀ borrowed, shape.borrowed? = some borrowed → borrowed.isEarly = true → borrowed.Settled)
    (rule : Rule cells before shape replacement) : Rule cells now shape replacement := by
  cases rule with
  | unary op operand span a value known computed => exact .unary op operand span a value known computed
  | binary op left right span a b value leftKnown rightKnown computed =>
      exact .binary op left right span a b value leftKnown rightKnown computed
  | left op left right span a effect leftKnown rightOpen identity =>
      exact .left op left right span a effect leftKnown rightOpen identity
  | right op left right span b effect leftOpen rightKnown identity =>
      exact .right op left right span b effect leftOpen rightKnown identity
  | noop conversion operand span noop => exact .noop conversion operand span noop
  | convert conversion operand span a value known computed =>
      exact .convert conversion operand span a value known computed
  | call routine args span values value foldable known computed =>
      have same := settled (.routine routine) rfl foldable values before now
      exact .call routine args span values value foldable known (same.symm.trans computed)
  | member source value readOnly computed =>
      have same := settled (.member source) rfl readOnly [] before now
      exact .member source value readOnly (same.symm.trans computed)
  | conditional condition accepted rejected a known => exact .conditional condition accepted rejected a known

theorem undecided_irreducible (cells : Cells T σ) (host : σ) (shape : Shape T σ Nat)
    (settled : ∀ borrowed, shape.borrowed? = some borrowed → borrowed.isEarly = true → borrowed.Settled)
    (undecided : decided cells shape host = none) : Irreducible cells shape := by
  intro other replacement rule
  have here := rule_decided cells host shape replacement (rule_settled cells other host shape replacement settled rule)
  simp [undecided] at here

theorem irreducible_undecided (cells : Cells T σ) (host : σ) (shape : Shape T σ Nat)
    (irreducible : Irreducible cells shape) : decided cells shape host = none := by
  cases found : decided cells shape host with
  | none => rfl
  | some replacement => exact absurd (decided_rule cells host shape replacement found) (irreducible host replacement)

theorem replacement_irreducible (cells : Cells T σ) (host : σ) (shape fresh : Shape T σ Nat)
    (rule : Rule cells host shape (.fresh fresh)) : Irreducible cells fresh := by
  have constant (value : T) : Irreducible cells (.constant value none : Shape T σ Nat) := by
    intro _ _ rule
    cases rule
  have negated (operand : Nat) (span : Span) (open_ : cells.constantAt? operand = none) :
      Irreducible cells (.unary .negate operand span : Shape T σ Nat) := by
    intro _ _ rule
    cases rule with
    | unary _ _ _ a value known computed => simp [open_] at known
  generalize target : (Replacement.fresh fresh : Replacement T σ) = replacement at rule
  cases rule with
  | left op left right span a effect leftKnown rightOpen identity =>
      cases effect with
      | negated =>
          obtain rfl := Replacement.fresh.inj target
          exact negated right span rightOpen
      | _ => simp [Effect.place] at target
  | right op left right span b effect leftOpen rightKnown identity =>
      cases effect with
      | negated =>
          obtain rfl := Replacement.fresh.inj target
          exact negated left span leftOpen
      | _ => simp [Effect.place] at target
  | noop conversion operand span noop => simp at target
  | conditional condition accepted rejected a known => simp at target
  | _ =>
      obtain rfl := Replacement.fresh.inj target
      exact constant _

end Rewrite

end Formula
