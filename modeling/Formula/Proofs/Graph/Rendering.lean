import Formula.Proofs.Graph.Parallel
import Formula.Proofs.Phrase.Enabled
import Formula.Proofs.Phrase.Spelling

set_option autoImplicit false

namespace Formula

variable {T σ ι κ : Type}

namespace Shape

def slots : Shape T σ ι → List (ι × Nat)
  | constant _ _ | parameter _ | member _ => []
  | unary _ operand _ | convert .identity operand _ => [(operand, unaryPrecedence)]
  | binary op left right _ => [(left, op.leftNeed), (right, op.rightNeed)]
  | convert .integral operand _ => [(operand, 0)]
  | call _ args _ => args.map fun arg => (arg, 0)
  | conditional condition accepted rejected => [(condition, 0), (accepted, 0), (rejected, 0)]

theorem slots_level (shape : Shape T σ ι) : ∀ slot ∈ shape.slots, slot.1 ∈ shape.children ∧ slot.2 ≤ unaryPrecedence := by
  cases shape with
  | constant value name => simp [slots]
  | parameter index => simp [slots]
  | member source => simp [slots]
  | unary op operand span => simp [slots, children]
  | binary op left right span =>
      have levels : op.leftNeed ≤ unaryPrecedence ∧ op.rightNeed ≤ unaryPrecedence := by cases op <;> decide
      simpa [slots, children] using levels
  | convert conversion operand span => cases conversion <;> simp [slots, children]
  | call routine args span => simp [slots, children]
  | conditional condition accepted rejected => simp [slots, children]

-- Nodes that do the same over children that belong together, whatever places and names of constants they have.
def Mirrors (means : ι → κ → Prop) (shape : Shape T σ ι) (node : Shape T σ κ) : Prop :=
  ∃ pairs other : Shape T σ (ι × κ), pairs.map Prod.fst = shape ∧ other.map Prod.snd = node ∧
    pairs.Parallel Eq (fun _ _ => True) other ∧ ∀ pair ∈ pairs.children, means pair.1 pair.2

end Shape

theorem Shape.call_text (name : String) (args : List String) :
    (renderCall name args).toList =
      name.toList ++ ("(".toList ++ (", ".toList.intercalate (args.map String.toList) ++ ")".toList)) := by
  simp [renderCall, String.toList_intercalate]

theorem forall_pairs (args : List ι) (es : List κ) (means : ι → κ → Prop)
    (each : List.Forall₂ (fun means e => means e) (args.map means) es) :
    ∃ pairs : List (ι × κ), pairs.map Prod.fst = args ∧ pairs.map Prod.snd = es ∧ ∀ pair ∈ pairs, means pair.1 pair.2 := by
  rw [List.forall₂_map_left_iff] at each
  induction each with
  | nil => exact ⟨[], rfl, rfl, by simp⟩
  | @cons arg e args es here _ ih =>
      obtain ⟨pairs, left, right, below⟩ := ih
      exact ⟨(arg, e) :: pairs, by simp [left], by simp [right], List.forall_mem_cons.mpr ⟨here, below⟩⟩

namespace Source

variable (flags : Flags) (source : Source T σ) (readable : source.Readable flags)

include readable

theorem spells_node [Numeric T] (shape : Shape T σ ι) (names : List String) (declared : source.parameters.names = names)
    (known : ∀ value name, shape ≠ .constant value name)
    (admitted : shape.outline.Admitted source.grammar names.length) (enabled : shape.outline.Enabled flags)
    (text : ι → String) (means : ι → Expr T σ → Prop) (after : Expr T σ → Prop)
    (each : ∀ slot ∈ shape.slots, source.Spells (text slot.1).toList slot.2 (means slot.1))
    (makes : ∀ node, shape.Mirrors means node → after (.node node)) :
    source.Spells ((shape.map text).render names).toList unaryPrecedence after := by
  have primary (piece : List Char) (spells : source.Spells piece Phrase.primary after) :
      source.Spells piece unaryPrecedence after :=
    source.spells_lower piece _ _ after spells (by decide)
  cases shape with
  | constant value name => exact absurd rfl (known value name)
  | parameter index =>
      obtain ⟨name, named⟩ : ∃ name, names[index]? = some name := ⟨_, List.getElem?_eq_getElem admitted⟩
      have rendered : (Shape.parameter index : Shape T σ String).render names = name := by
        rw [Shape.render, List.getD_eq_getElem?_getD, named, Option.getD_some]
      have spells := spells_input flags source readable index name (declared ▸ named)
      rw [Shape.map, rendered]
      refine primary _ (source.spells_weaker _ _ _ _ after spells (Nat.le_refl _) ?_)
      rintro e rfl
      exact makes _ ⟨.parameter index, .parameter index, rfl, rfl, .parameter index, by simp [Shape.children]⟩
  | member member =>
      have spells := spells_member flags source readable member admitted
      refine primary _ (source.spells_weaker _ _ _ _ after spells (Nat.le_refl _) ?_)
      rintro e rfl
      exact makes _ ⟨.member member, .member member, rfl, rfl, .member member member rfl, by simp [Shape.children]⟩
  | unary op operand span =>
      have spells := spells_unary flags source readable _ (means operand) after op enabled (each _ List.mem_cons_self)
        fun e place meant => makes _ ⟨.unary op (operand, e) span, .unary op (operand, e) place, rfl, rfl,
          .unary op _ span place trivial, by simpa [Shape.children] using meant⟩
      simpa [Shape.map, Shape.render] using spells
  | binary op left right span =>
      have inner := spells_between flags source readable op enabled " ".toList (by simp) _ _ (means left) (means right)
        after (each (left, op.leftNeed) (by simp [Shape.slots])) (each (right, op.rightNeed) (by simp [Shape.slots]))
        fun a b meantA meantB place => makes _ ⟨.binary op (left, a) (right, b) span, .binary op (left, a) (right, b) place,
          rfl, rfl, .binary op _ _ span place trivial, by simpa [Shape.children] using ⟨meantA, meantB⟩⟩
      have grouped := spells_group flags source readable _ after (source.spells_lower _ _ _ after inner (Nat.zero_le _))
      refine primary _ ?_
      simpa [Shape.map, Shape.render] using grouped
  | convert conversion operand span =>
      have mirrors (e : Expr T σ) (place : Span) (meant : means operand e) :
          (Shape.convert conversion operand span : Shape T σ ι).Mirrors means (.convert conversion e place) :=
        ⟨.convert conversion (operand, e) span, .convert conversion (operand, e) place, rfl, rfl,
          .convert conversion _ span place trivial, by simpa [Shape.children] using meant⟩
      cases conversion with
      | identity =>
          have spells := spells_identity flags source readable _ (means operand) after enabled (each _ List.mem_cons_self)
            fun e place meant => makes _ (mirrors e place meant)
          simpa [Shape.map, Shape.render] using spells
      | integral =>
          have spells := spells_integral flags source readable _ (means operand) after (each _ List.mem_cons_self)
            fun e place meant => makes _ (mirrors e place meant)
          refine primary _ ?_
          rw [Shape.map, Shape.render, Shape.call_text]
          exact spells
  | call routine args span =>
      have all : List.Forall₂ (fun piece means => source.Spells piece 0 means)
          (args.map fun arg => (text arg).toList) (args.map means) := by
        rw [List.forall₂_map_left_iff, List.forall₂_map_right_iff, List.forall₂_same]
        exact fun arg member => each (arg, 0) (List.mem_map_of_mem member)
      refine primary _ ?_
      rw [Shape.map, Shape.render, Shape.call_text, List.map_map]
      refine spells_routine flags source readable routine admitted.1 _ _ all (by simpa using admitted.2) after ?_
      intro es place meant
      obtain ⟨pairs, left, right, below⟩ := forall_pairs args es means meant
      exact makes _ ⟨.call routine pairs span, .call routine pairs place, by rw [Shape.map, left], by rw [Shape.map, right],
        .call routine routine pairs span place rfl trivial, below⟩
  | conditional condition accepted rejected =>
      have spells := spells_conditional flags source readable _ _ _ (means condition) (means accepted) (means rejected) after
        (each (condition, 0) (by simp [Shape.slots])) (each (accepted, 0) (by simp [Shape.slots]))
        (each (rejected, 0) (by simp [Shape.slots])) fun a b c first second third =>
          makes _ ⟨.conditional (condition, a) (accepted, b) (rejected, c), .conditional (condition, a) (accepted, b)
            (rejected, c), rfl, rfl, .conditional _ _ _, by simpa [Shape.children] using ⟨first, second, third⟩⟩
      refine primary _ ?_
      rw [Shape.map, Shape.render, Shape.call_text]
      exact spells

end Source

end Formula
