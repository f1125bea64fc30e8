import Formula.Proofs.Graph.Running
import Formula.Proofs.Numeric.Exact

set_option autoImplicit false

namespace Formula

variable {T σ τ ι : Type}

-- Two nodes over the same children that do the same but for what they borrow and where they stand.
inductive Shape.Parallel (uses : Borrowed T σ → Borrowed T τ → Prop) (places : Span → Span → Prop) :
    Shape T σ ι → Shape T τ ι → Prop
  | constant (value : T) (name other : Option String) :
      Parallel uses places (.constant value name) (.constant value other)
  | parameter (index : Nat) : Parallel uses places (.parameter index) (.parameter index)
  | member (source : Member T σ) (other : Member T τ) (used : uses (.member source) (.member other)) :
      Parallel uses places (.member source) (.member other)
  | unary (op : UnaryOperator) (operand : ι) (span place : Span) (located : places span place) :
      Parallel uses places (.unary op operand span) (.unary op operand place)
  | binary (op : BinaryOperator) (left right : ι) (span place : Span) (located : places span place) :
      Parallel uses places (.binary op left right span) (.binary op left right place)
  | convert (conversion : Conversion) (operand : ι) (span place : Span) (located : places span place) :
      Parallel uses places (.convert conversion operand span) (.convert conversion operand place)
  | call (routine : Routine T σ) (other : Routine T τ) (args : List ι) (span place : Span)
      (used : uses (.routine routine) (.routine other)) (located : places span place) :
      Parallel uses places (.call routine args span) (.call other args place)
  | conditional (condition accepted rejected : ι) :
      Parallel uses places (.conditional condition accepted rejected) (.conditional condition accepted rejected)

theorem Shape.parallel_self (uses : Borrowed T σ → Borrowed T σ → Prop) (places : Span → Span → Prop)
    (shape : Shape T σ ι) (used : ∀ borrowed, shape.borrowed? = some borrowed → uses borrowed borrowed)
    (located : ∀ span, places span span) : Parallel uses places shape shape := by
  cases shape with
  | constant value name => exact .constant value name name
  | parameter index => exact .parameter index
  | member source => exact .member source source (used _ rfl)
  | unary op operand span => exact .unary op operand span span (located span)
  | binary op left right span => exact .binary op left right span span (located span)
  | convert conversion operand span => exact .convert conversion operand span span (located span)
  | call routine args span => exact .call routine routine args span span (used _ rfl) (located span)
  | conditional condition accepted rejected => exact .conditional condition accepted rejected

theorem Shape.parallel_moved {κ : Type} (uses : Borrowed T σ → Borrowed T τ → Prop) (places : Span → Span → Prop)
    (f : ι → κ) (shape : Shape T σ ι) (other : Shape T τ κ) (parallel : (shape.map f).Parallel uses places other) :
    ∃ moved, shape.Parallel uses places moved ∧ moved.map f = other := by
  cases shape with
  | constant value name =>
      cases parallel with
      | constant _ _ other => exact ⟨.constant value other, .constant value name other, rfl⟩
  | parameter index =>
      cases parallel with
      | parameter => exact ⟨.parameter index, .parameter index, rfl⟩
  | member source =>
      cases parallel with
      | member _ other used => exact ⟨.member other, .member source other used, rfl⟩
  | unary op operand span =>
      cases parallel with
      | unary _ _ _ place located => exact ⟨.unary op operand place, .unary op operand span place located, rfl⟩
  | binary op left right span =>
      cases parallel with
      | binary _ _ _ _ place located => exact ⟨.binary op left right place, .binary op left right span place located, rfl⟩
  | convert conversion operand span =>
      cases parallel with
      | convert _ _ _ place located =>
          exact ⟨.convert conversion operand place, .convert conversion operand span place located, rfl⟩
  | call routine args span =>
      cases parallel with
      | call _ other _ _ place used located =>
          exact ⟨.call other args place, .call routine other args span place used located, rfl⟩
  | conditional condition accepted rejected =>
      cases parallel with
      | conditional => exact ⟨.conditional condition accepted rejected, .conditional condition accepted rejected, rfl⟩

def Shape.span? : Shape T σ ι → Option Span
  | .unary _ _ span | .binary _ _ _ span | .convert _ _ span | .call _ _ span => some span
  | _ => none

theorem Cells.alike_parallel [Numeric T] [Discerning T] (places : Span → Span → Prop) (allowed : Borrowed T σ → Prop)
    (coherent : ∀ a b, allowed a → allowed b → a.identical b = true → a = b) (a b : Shape T σ Nat)
    (allowedA : ∀ borrowed, a.borrowed? = some borrowed → allowed borrowed)
    (allowedB : ∀ borrowed, b.borrowed? = some borrowed → allowed borrowed) (like : alike a b = true)
    (located : ∀ span place, a.span? = some span → b.span? = some place → places span place) :
    a.Parallel Eq places b := by
  cases a <;> cases b <;> simp only [alike, Bool.and_eq_true, decide_eq_true_eq, Bool.false_eq_true] at like
  case constant.constant v name w other =>
    obtain rfl := (Discerning.same_iff v w).mp like
    exact .constant v name other
  case parameter.parameter =>
    obtain rfl := like
    exact .parameter _
  case member.member m n => exact .member m n (coherent _ _ (allowedA _ rfl) (allowedB _ rfl) like)
  case unary.unary =>
    obtain ⟨rfl, rfl⟩ := like
    exact .unary _ _ _ _ (located _ _ rfl rfl)
  case binary.binary =>
    obtain ⟨⟨rfl, rfl⟩, rfl⟩ := like
    exact .binary _ _ _ _ _ (located _ _ rfl rfl)
  case convert.convert =>
    obtain ⟨rfl, rfl⟩ := like
    exact .convert _ _ _ _ (located _ _ rfl rfl)
  case call.call f args _ g others _ =>
    obtain ⟨same, rfl⟩ := like
    exact .call f g args _ _ (coherent _ _ (allowedA _ rfl) (allowedB _ rfl) same) (located _ _ rfl rfl)
  case conditional.conditional =>
    obtain ⟨⟨rfl, rfl⟩, rfl⟩ := like
    exact .conditional _ _ _

namespace Run

variable (related : (α : Type) → Run σ α → Run τ α → Prop) (places : Span → Span → Prop)

structure Congruence : Prop where
  result : ∀ (α : Type) (outcome : Except EvalError α), related α (ofExcept outcome) (ofExcept outcome)
  bind : ∀ (α β : Type) (action : Run σ α) (other : Run τ α) (next : α → Run σ β) (later : α → Run τ β),
    related α action other → (∀ value, related β (next value) (later value)) →
    related β (action >>= next) (other >>= later)
  locate : ∀ (α : Type) (span place : Span) (action : Run σ α) (other : Run τ α), places span place →
    related α action other → related α (Shape.locate span action) (Shape.locate place other)

variable (congruence : Congruence related places) (inputs : List T) (f : ι → Program T σ) (g : ι → Program T τ)

include congruence

theorem all_related (args : List ι) (each : ∀ arg ∈ args, related T (f arg inputs) (g arg inputs)) :
    related (List T) (Shape.runAll inputs (args.map f)) (Shape.runAll inputs (args.map g)) := by
  induction args with
  | nil => exact congruence.result _ (.ok [])
  | cons arg rest ih =>
      refine congruence.bind _ _ _ _ _ _ (each arg (by simp)) fun value => ?_
      exact congruence.bind _ _ _ _ _ _ (ih fun other member => each other (by simp [member])) fun values =>
        congruence.result _ (.ok (value :: values))

theorem parallel_related [Numeric T] (uses : Borrowed T σ → Borrowed T τ → Prop)
    (used : ∀ borrowed other, uses borrowed other → ∀ args, related T (borrowed.use args) (other.use args))
    (shape : Shape T σ ι) (other : Shape T τ ι) (parallel : shape.Parallel uses places other)
    (each : ∀ child ∈ shape.children, related T (f child inputs) (g child inputs)) :
    related T ((shape.map f).run inputs) ((other.map g).run inputs) := by
  cases parallel with
  | constant value name other => exact congruence.result _ (.ok value)
  | parameter index =>
      rw [Shape.map, Shape.map, Shape.run, Shape.run]
      cases inputs[index]? with
      | none => exact congruence.result _ (.error _)
      | some value => exact congruence.result _ (.ok value)
  | member source other same => exact used _ _ same []
  | unary op operand span place located =>
      refine congruence.bind _ _ _ _ _ _ (each operand (by simp [Shape.children])) fun a => ?_
      exact congruence.locate _ _ _ _ _ located (congruence.result _ _)
  | binary op left right span place located =>
      refine congruence.bind _ _ _ _ _ _ (each left (by simp [Shape.children])) fun a => ?_
      refine congruence.bind _ _ _ _ _ _ (each right (by simp [Shape.children])) fun b => ?_
      exact congruence.locate _ _ _ _ _ located (congruence.result _ _)
  | convert conversion operand span place located =>
      refine congruence.bind _ _ _ _ _ _ (each operand (by simp [Shape.children])) fun a => ?_
      exact congruence.locate _ _ _ _ _ located (congruence.result _ _)
  | call routine other args span place same located =>
      refine congruence.bind _ _ _ _ _ _ (all_related related places congruence inputs f g args each) fun values => ?_
      exact congruence.locate _ _ _ _ _ located (used _ _ same values)
  | conditional condition accepted rejected =>
      refine congruence.bind _ _ _ _ _ _ (each condition (by simp [Shape.children])) fun a => ?_
      split
      · exact each accepted (by simp [Shape.children])
      · exact each rejected (by simp [Shape.children])

end Run

theorem Cells.parallel_worth [Numeric T] (related : (α : Type) → Run σ α → Run τ α → Prop) (places : Span → Span → Prop)
    (congruence : Run.Congruence related places) (uses : Borrowed T σ → Borrowed T τ → Prop)
    (used : ∀ borrowed other, uses borrowed other → ∀ args, related T (borrowed.use args) (other.use args))
    (cells : Cells T σ) (more : Cells T τ) (earlier : cells.Earlier) (later : more.Earlier) (place : Nat → Nat)
    (each : ∀ (index : Nat) (shape : Shape T σ Nat), cells[index]? = some shape →
      ∃ entry, more[place index]? = some entry ∧ (shape.map place).Parallel uses places entry)
    (nothing : Program T σ) (other : Program T τ) (inputs : List T) (index : Nat) (bound : index < cells.size) :
    related T (cells.worth Shape.run nothing index inputs) (more.worth Shape.run other (place index) inputs) := by
  apply entry_induction cells earlier _ index bound
  intro index shape read ih
  obtain ⟨entry, found, parallel⟩ := each index shape read
  obtain ⟨moved, beside, rfl⟩ := Shape.parallel_moved uses places place shape entry parallel
  rw [worth_read Shape.run nothing cells earlier index shape read, worth_read Shape.run other more later _ _ found,
    Shape.map_map]
  exact Run.parallel_related related places congruence inputs _ _ uses used shape moved beside ih

end Formula
