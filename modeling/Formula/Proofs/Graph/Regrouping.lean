import Formula.Proofs.Graph.Calls
import Formula.Proofs.Graph.Rendering
import Formula.Proofs.Literal.Reading

/-!
A program over decimals prints a fraction with a bar and puts no brackets around it. Next to an operator that binds no
less than the bar the text is read with other operands than the program has. A product gives the same even so, and a
power of a fractional exponent has no value that could get lost; where no fraction stands on the right of a quotient or
a remainder or on the left of a power, what is read again gives what the program gives.
-/

set_option autoImplicit false

namespace Formula

variable {T σ ι κ : Type}

theorem Shape.mirrors_weaker (means after : ι → κ → Prop) (implies : ∀ a b, means a b → after a b) (shape : Shape T σ ι)
    (node : Shape T σ κ) (mirrors : shape.Mirrors means node) : shape.Mirrors after node := by
  obtain ⟨pairs, other, first, second, parallel, each⟩ := mirrors
  exact ⟨pairs, other, first, second, parallel, fun pair member => implies _ _ (each pair member)⟩

theorem Run.follows_applied {α : Type} (action : Run σ α) (apply : α → Except EvalError α) (value result : α)
    (span : Span) (gives : Follows action (return value)) (computed : apply value = .ok result) :
    Follows (action >>= fun value => Shape.locate span (ofExcept (apply value))) (return result) := by
  refine apply_follows action apply span _ fun state found other known applied => ?_
  obtain ⟨same, kept⟩ := gives state found known
  obtain rfl := Except.ok.inj same
  exact ⟨computed.symm.trans applied, kept⟩

def Expr.Carries [Numeric T] (e : Expr T σ) (program : Program T σ) : Prop :=
  ∀ inputs, Run.Follows (program inputs) (e.run inputs)

namespace Expr

variable [Numeric T]

theorem mirrors_carry (f : ι → Program T σ) (shape : Shape T σ ι) (node : Shape T σ (Expr T σ))
    (mirrors : shape.Mirrors (fun child e => e.Carries (f child)) node) : (Expr.node node).Carries (shape.map f).run := by
  obtain ⟨pairs, other, rfl, rfl, parallel, each⟩ := mirrors
  intro inputs
  rw [Expr.run, fold_node, Shape.map_map, Shape.map_map]
  refine Run.parallel_related _ _ Run.follows_congruence inputs _ _ Eq ?_ pairs other parallel
    fun pair member => each pair member inputs
  rintro borrowed _ rfl args
  exact Run.follows_refl _

theorem carries_unary (op : UnaryOperator) (e : Expr T σ) (program : Program T σ) (carries : e.Carries program)
    (span place : Span) : (Expr.node (.unary op e place)).Carries (Shape.unary op program span).run :=
  mirrors_carry id _ _ ⟨.unary op (program, e) span, .unary op (program, e) place, rfl, rfl,
    .unary op _ span place trivial, by simpa [Shape.children]⟩

theorem carries_binary (op : BinaryOperator) (a b : Expr T σ) (first second : Program T σ) (left : a.Carries first)
    (right : b.Carries second) (span place : Span) :
    (Expr.node (.binary op a b place)).Carries (Shape.binary op first second span).run :=
  mirrors_carry id _ _ ⟨.binary op (first, a) (second, b) span, .binary op (first, a) (second, b) place, rfl, rfl,
    .binary op _ _ span place trivial, by simpa [Shape.children] using ⟨left, right⟩⟩

theorem carries_convert (conversion : Conversion) (e : Expr T σ) (program : Program T σ) (carries : e.Carries program)
    (span place : Span) : (Expr.node (.convert conversion e place)).Carries (Shape.convert conversion program span).run :=
  mirrors_carry id _ _ ⟨.convert conversion (program, e) span, .convert conversion (program, e) place, rfl, rfl,
    .convert conversion _ span place trivial, by simpa [Shape.children]⟩

theorem carries_divided (program whole : Program T σ) (e divisor : Expr T σ) (below : T) (span : Span)
    (carries : e.Carries program) (known : divisor.Carries fun _ => return below)
    (quotient : ∀ inputs state value, (whole inputs).outcome state = .ok value →
      ∃ dividend, (program inputs).outcome state = .ok dividend ∧ (program inputs).after state = (whole inputs).after state ∧
        Numeric.binary .div dividend below = .ok value) :
    (Expr.node (.binary .div e divisor span)).Carries whole := by
  intro inputs
  refine Run.follows_trans _ _ _ ?_ (carries_binary .div e divisor program _ carries known span span inputs)
  intro state value done
  obtain ⟨dividend, found, kept, divided⟩ := quotient inputs state value done
  rw [Shape.run, Run.outcome_bind, Run.after_bind, found]
  change (Shape.locate span (Run.ofExcept (Numeric.binary .div dividend below))).outcome _ = _ ∧
    (Shape.locate span (Run.ofExcept (Numeric.binary .div dividend below))).after _ = _
  rw [Run.locate_ok, Run.locate_after]
  exact ⟨divided, kept⟩

end Expr

-- Whether an operator gives the same when what is above a bar next to it becomes its operand: with a fraction on its left
-- and on its right.
def BinaryOperator.Tolerates (left right : Bool) : BinaryOperator → Prop
  | .div | .rem => right = false
  | .pow => left = false
  | _ => True

namespace Decimal

-- Whether what a node prints has a bar that nothing brackets.
def barred : Shape Rat σ Bool → Bool
  | .constant value _ => value.den ≠ 1
  | .unary _ operand _ | .convert .identity operand _ => operand
  | _ => false

def level (bars : Bool) : Nat := if bars then BinaryOperator.div.level.1 else unaryPrecedence

theorem left_untaken (op : BinaryOperator) (bars : Bool) (untaken : ¬ op.leftNeed ≤ level bars) :
    op = .pow ∧ bars = true := by
  cases op <;> cases bars <;> first
    | exact ⟨rfl, rfl⟩
    | exact absurd (by decide) untaken

theorem right_untaken (op : BinaryOperator) (bars : Bool) (untaken : ¬ op.rightNeed ≤ level bars) :
    bars = true ∧ BinaryOperator.div.leftNeed ≤ min op.level.1 BinaryOperator.div.level.1 ∧
      op.rightNeed ≤ unaryPrecedence := by
  cases op <;> cases bars <;> first
    | exact ⟨rfl, by decide, by decide⟩
    | exact absurd (by decide) untaken

theorem untaken_harmless (op : BinaryOperator) (left : Bool) (tolerates : op.Tolerates left true)
    (untaken : ¬ op.rightNeed ≤ level true) : op = .mul ∨ op = .pow := by
  cases op <;> first
    | exact .inl rfl
    | exact .inr rfl
    | exact Bool.noConfusion (show true = false from tolerates)
    | exact absurd (by decide) untaken

theorem times_divided (value : Rat) (below : Nat) (divides : below ≠ 0) :
    Numeric.binary .div (value * below) (below : Rat) = .ok value := by
  have nonzero : (below : Rat) ≠ 0 := Nat.cast_ne_zero.mpr divides
  change (if (below : Rat) = 0 then _ else _) = _
  rw [if_neg nonzero, mul_div_cancel_right₀ value nonzero]

section

variable (op : BinaryOperator) (harmless : op = .mul ∨ op = .pow) (value : Rat) (proper : value.den ≠ 1) (below : Nat)
  (divides : below ≠ 0)

include harmless proper divides

theorem value_regroups (a result : Rat) (computed : Numeric.binary op a value = .ok result) :
    ∃ dividend, Numeric.binary op a (value * below) = .ok dividend ∧
      Numeric.binary .div dividend (below : Rat) = .ok result := by
  rcases harmless with rfl | rfl
  · obtain rfl : a * value = result := Except.ok.inj computed
    exact ⟨a * value * below, congrArg Except.ok (mul_assoc a value _).symm, times_divided _ below divides⟩
  · -- No exponent is a fraction.
    change checkedPower a value = .ok result at computed
    unfold checkedPower integralExponent at computed
    rw [if_pos proper] at computed
    exact absurd computed (by simp [bind, Except.bind])

theorem binary_regroups (first second : Program Rat σ) (gives : ∀ inputs, Run.Follows (second inputs) (return value))
    (span : Span) (inputs : List Rat) (state : σ) (result : Rat)
    (done : ((Shape.binary op first second span).run inputs).outcome state = .ok result) :
    ∃ dividend, ((Shape.binary op first (fun _ => return value * below) span).run inputs).outcome state = .ok dividend ∧
      ((Shape.binary op first (fun _ => return value * below) span).run inputs).after state =
        ((Shape.binary op first second span).run inputs).after state ∧
      Numeric.binary .div dividend (below : Rat) = .ok result := by
  simp only [Shape.run, Run.outcome_bind, Run.after_bind] at done ⊢
  cases known : (first inputs).outcome state with
  | error error => simp [known] at done
  | ok a =>
      simp only [known] at done ⊢
      cases given : (second inputs).outcome ((first inputs).after state) with
      | error error => simp [given] at done
      | ok b =>
          obtain ⟨same, kept⟩ := gives inputs _ b given
          obtain rfl := Except.ok.inj same
          rw [given] at done
          obtain ⟨dividend, computed, divided⟩ :=
            value_regroups op harmless value proper below divides a result ((Run.locate_ok _ _ _ _).mp done)
          refine ⟨dividend, (Run.locate_ok _ _ _ _).mpr computed, ?_, divided⟩
          simp only [Run.locate_after]
          exact kept

end

end Decimal

namespace Source

variable (source : Source Rat σ) (sure : Prop)

def Prints (piece : List Char) (need : Nat) (program : Program Rat σ) : Prop :=
  source.Spells piece need fun e => sure → e.Carries program

-- A piece that ends in a bar that nothing brackets, and the fraction that it stands for.
structure Bars (piece : List Char) (value : Rat) (above : List Char) (below : Nat) : Prop where
  proper : value.den ≠ 1
  divides : below ≠ 0
  piece : piece = above ++ ("/".toList ++ Nat.toDigits 10 below)
  above : source.Prints sure above unaryPrecedence fun _ => return value * below

inductive Legible (flags : Flags) : Bool → List Char → Program Rat σ → Prop
  | whole (piece : List Char) (program : Program Rat σ) (prints : source.Prints sure piece unaryPrecedence program) :
      Legible flags false piece program
  | fraction (piece above : List Char) (value : Rat) (below : Nat) (program : Program Rat σ)
      (numeric : flags.numeric = true) (bars : source.Bars sure piece value above below)
      (gives : ∀ inputs, Run.Follows (program inputs) (return value)) : Legible flags true piece program

theorem legible_before (flags : Flags) (sign : List Char) (apply : Program Rat σ → Program Rat σ) (change : Rat → Rat)
    (prints : ∀ piece program, source.Prints sure piece unaryPrecedence program →
      source.Prints sure (sign ++ piece) unaryPrecedence (apply program))
    (proper : ∀ value, (change value).den = value.den)
    (scales : ∀ (value : Rat) (below : Nat), (apply fun _ => return value * below) = fun _ => return change value * below)
    (follows : ∀ program value, (∀ inputs, Run.Follows (program inputs) (return value)) →
      ∀ inputs, Run.Follows (apply program inputs) (return change value))
    (bars : Bool) (piece : List Char) (program : Program Rat σ) (legible : source.Legible sure flags bars piece program) :
    source.Legible sure flags bars (sign ++ piece) (apply program) := by
  cases legible with
  | whole _ _ spells => exact .whole _ _ (prints piece program spells)
  | fraction _ above value below _ numeric bars gives =>
      have gives := follows program value gives
      refine .fraction _ (sign ++ above) (change value) below _ numeric ⟨?_, bars.divides, ?_, ?_⟩ gives
      · rw [proper]
        exact bars.proper
      · rw [bars.piece, List.append_assoc]
      · rw [← scales]
        exact prints above _ bars.above

section

variable (flags : Flags) (readable : source.Readable flags)

include readable

theorem legible_negated (numeric : flags.numeric = true) (span : Span) (bars : Bool) (piece : List Char)
    (program : Program Rat σ) (legible : source.Legible sure flags bars piece program) :
    source.Legible sure flags bars ("-".toList ++ piece) (Shape.unary .negate program span).run := by
  refine source.legible_before sure flags _ (fun program => (Shape.unary .negate program span).run) (fun value => -value)
    ?_ (fun _ => rfl) ?_ ?_ bars piece program legible
  · intro piece program prints
    exact spells_unary flags source readable piece _ _ .negate numeric prints fun e place carries yes =>
      e.carries_unary .negate _ (carries yes) span place
  · intro value below
    simp only [neg_mul]
    rfl
  · intro program value gives inputs
    exact Run.follows_applied _ (Numeric.unary .negate) value (-value) span (gives inputs) rfl

theorem legible_identity (numeric : flags.numeric = true) (span : Span) (bars : Bool) (piece : List Char)
    (program : Program Rat σ) (legible : source.Legible sure flags bars piece program) :
    source.Legible sure flags bars ("+".toList ++ piece) (Shape.convert .identity program span).run := by
  refine source.legible_before sure flags _ (fun program => (Shape.convert .identity program span).run) id
    ?_ (fun _ => rfl) (fun _ _ => rfl) ?_ bars piece program legible
  · intro piece program prints
    exact spells_identity flags source readable piece _ _ numeric prints fun e place carries yes =>
      e.carries_convert .identity _ (carries yes) span place
  · intro program value gives inputs
    exact Run.follows_applied _ (Conversion.apply .identity) value value span (gives inputs) rfl

variable (default : source.grammar.reader = Numeric.read)

include default

theorem spells_count (n : Nat) : source.Spells (Nat.toDigits 10 n) Phrase.primary (·.Carries fun _ => return (n : Rat)) := by
  refine source.spells_weaker _ _ _ _ _ (spells_written flags source readable n (n : Rat) fun start stop found => ?_)
    (Nat.le_refl _) ?_
  · rw [Grammar.read, default]
    exact Decimal.read_digits n _ start stop found
  · rintro e rfl inputs
    exact Run.follows_refl _

theorem spells_numerator (value : Rat) (signed : flags.numeric = true ∨ 0 ≤ value.num) :
    source.Spells ((Decimal.sign value).toList ++ Nat.toDigits 10 value.num.natAbs) unaryPrecedence
      (·.Carries fun _ => return (value.num : Rat)) := by
  have digits := spells_count source flags readable default value.num.natAbs
  by_cases negative : value.num < 0
  · have whole : (value.num : Rat) = -(value.num.natAbs : Rat) := by
      rw [← Int.cast_natCast, Int.ofNat_natAbs_of_nonpos (Int.le_of_lt negative), Int.cast_neg, neg_neg]
    have enabled := signed.resolve_right (by omega)
    rw [Decimal.sign, if_pos negative, whole]
    refine spells_unary flags source readable _ _ _ .negate enabled
      (source.spells_lower _ _ _ _ digits (by decide)) fun e span carries => ?_
    exact e.carries_unary .negate _ carries span span
  · have whole : (value.num : Rat) = (value.num.natAbs : Rat) := by
      rw [← Int.cast_natCast, Int.natAbs_of_nonneg (Int.not_lt.mp negative)]
    rw [Decimal.sign, if_neg negative, whole]
    exact source.spells_lower _ _ _ _ digits (by decide)

theorem prints_over (numeric : flags.numeric = true) (piece : List Char) (below : Nat) (program whole : Program Rat σ)
    (prints : source.Prints sure piece BinaryOperator.div.leftNeed program)
    (quotient : sure → ∀ inputs state value, (whole inputs).outcome state = .ok value →
      ∃ dividend, (program inputs).outcome state = .ok dividend ∧
        (program inputs).after state = (whole inputs).after state ∧
        Numeric.binary .div dividend (below : Rat) = .ok value) :
    source.Prints sure (piece ++ ("/".toList ++ Nat.toDigits 10 below)) BinaryOperator.div.level.1 whole := by
  have need : BinaryOperator.div.rightNeed ≤ Phrase.primary := by decide
  have digits := source.spells_lower _ _ _ _ (spells_count source flags readable default below) need
  have between := spells_between flags source readable .div numeric [] (by simp) piece _ _ _
    (fun e => sure → e.Carries whole) prints digits fun a b carries known span yes =>
      a.carries_divided program whole b below span (carries yes) known (quotient yes)
  rwa [List.nil_append, List.append_nil] at between

theorem legible_taken (bars : Bool) (piece : List Char) (program : Program Rat σ)
    (legible : source.Legible sure flags bars piece program) (need : Nat) (enough : need ≤ Decimal.level bars) :
    source.Prints sure piece need program := by
  cases legible with
  | whole _ _ prints => exact source.spells_lower _ _ _ _ prints enough
  | fraction _ above value below _ numeric bars gives =>
      refine source.spells_lower _ _ _ _ ?_ enough
      rw [bars.piece]
      refine prints_over source sure flags readable default numeric above below (fun _ => return value * below) program
        (source.spells_lower _ _ _ _ bars.above (by decide)) fun _ inputs state result done => ?_
      obtain ⟨same, kept⟩ := gives inputs state result done
      obtain rfl := Except.ok.inj same
      exact ⟨value * below, rfl, kept, Decimal.times_divided value below bars.divides⟩

theorem legible_constant (value : Rat) (name : Option String) (names : List String)
    (signed : flags.numeric = true ∨ value.den = 1 ∧ 0 ≤ value.num) :
    source.Legible sure flags (Decimal.barred (.constant value name : Shape Rat σ Bool))
      ((.constant value name : Shape Rat σ String).render names).toList fun _ => return value := by
  change source.Legible sure flags (decide (value.den ≠ 1)) (Decimal.display value).toList _
  have spells := spells_numerator source flags readable default value (signed.imp_right And.right)
  by_cases whole : value.den = 1
  · have same : (value.num : Rat) = value := Rat.coe_int_num_of_den_eq_one whole
    rw [same] at spells
    rw [Decimal.display_text, if_pos whole, List.append_nil, decide_eq_false (by simpa using whole)]
    exact .whole _ _ (source.spells_weaker _ _ _ _ _ spells (Nat.le_refl _) fun _ carries _ => carries)
  · have numeric := signed.resolve_right fun natural => whole natural.1
    rw [← Rat.mul_den_eq_num] at spells
    rw [decide_eq_true whole]
    refine .fraction _ ((Decimal.sign value).toList ++ Nat.toDigits 10 value.num.natAbs) value value.den _ numeric
      ⟨whole, value.den_nz, ?_, ?_⟩ fun _ => Run.follows_refl _
    · rw [Decimal.display_text, if_neg whole]
    · exact source.spells_weaker _ _ _ _ _ spells (Nat.le_refl _) fun _ carries _ => carries

section

variable (op : BinaryOperator) (enabled : op.under flags = true) (barsLeft barsRight : Bool)
  (tolerates : sure → op.Tolerates barsLeft barsRight) (left right : List Char) (first second : Program Rat σ) (span : Span)
  (before : source.Legible sure flags barsLeft left first)

include enabled tolerates before

theorem prints_after (after : source.Prints sure right op.rightNeed second) :
    source.Prints sure (left ++ (" ".toList ++ (op.symbol.toList ++ " ".toList) ++ right))
      (min op.level.1 BinaryOperator.div.level.1) (Shape.binary op first second span).run := by
  by_cases taken : op.leftNeed ≤ Decimal.level barsLeft
  · have whole := legible_taken source sure flags readable default _ _ _ before _ taken
    have between := spells_between flags source readable op enabled " ".toList (by simp) left right _ _
      (fun e => sure → e.Carries (Shape.binary op first second span).run) whole after fun a b carriesA carriesB place yes =>
        Expr.carries_binary op a b _ _ (carriesA yes) (carriesB yes) span place
    exact source.spells_lower _ _ _ _ between (Nat.min_le_left _ _)
  · obtain ⟨rfl, rfl⟩ := Decimal.left_untaken op barsLeft taken
    cases before with
    | fraction _ above value below _ numeric bars gives =>
        have unsure : ¬ sure := fun yes => Bool.noConfusion (show true = false from tolerates yes)
        have digits := source.spells_lower _ _ BinaryOperator.pow.leftNeed _
          (spells_count source flags readable default below) (by decide)
        have power := spells_between flags source readable .pow enabled " ".toList (by simp) _ right _ _ (fun _ => True)
          digits after fun _ _ _ _ _ => trivial
        have quotient := spells_between flags source readable .div numeric [] (by simp) above _ _ _
          (fun e => sure → e.Carries (Shape.binary .pow first second span).run)
          (source.spells_lower _ _ _ _ bars.above (by decide)) (source.spells_lower _ _ _ _ power (by decide))
          fun _ _ _ _ _ yes => absurd yes unsure
        rw [bars.piece]
        simp only [List.append_assoc, List.nil_append, List.append_nil] at quotient ⊢
        exact quotient

theorem prints_binary (after : source.Legible sure flags barsRight right second) :
    source.Prints sure (left ++ (" ".toList ++ (op.symbol.toList ++ " ".toList) ++ right)) 0
      (Shape.binary op first second span).run := by
  by_cases taken : op.rightNeed ≤ Decimal.level barsRight
  · have whole := legible_taken source sure flags readable default _ _ _ after _ taken
    have between := prints_after source sure flags readable default op enabled barsLeft barsRight tolerates left right first
      second span before whole
    exact source.spells_lower _ _ _ _ between (Nat.zero_le _)
  · obtain ⟨rfl, tight, need⟩ := Decimal.right_untaken op barsRight taken
    cases after with
    | fraction _ above value below _ numeric bars gives =>
        have harmless (yes : sure) := Decimal.untaken_harmless op barsLeft (tolerates yes) taken
        have dividend := prints_after source sure flags readable default op enabled barsLeft true tolerates left above first
          (fun _ => return value * below) span before (source.spells_lower _ _ _ _ bars.above need)
        have quotient := prints_over source sure flags readable default numeric _ below _
          (Shape.binary op first second span).run (source.spells_lower _ _ _ _ dividend tight) fun yes =>
            Decimal.binary_regroups op (harmless yes) value bars.proper below bars.divides first second gives span
        rw [bars.piece]
        simp only [List.append_assoc] at quotient ⊢
        exact source.spells_lower _ _ _ _ quotient (Nat.zero_le _)

end

section

variable (integral : flags.integer = false) (shape : Shape Rat σ ι) (names : List String)
  (declared : source.parameters.names = names) (admitted : shape.outline.Admitted source.grammar names.length)
  (enabled : shape.outline.Enabled flags) (bars : ι → Bool) (text : ι → String) (program : ι → Program Rat σ)
  (each : ∀ child ∈ shape.children, source.Legible sure flags (bars child) (text child).toList (program child))

include declared admitted enabled each

theorem legible_bracketed (known : ∀ value name, shape ≠ .constant value name) (slots : ∀ slot ∈ shape.slots, slot.2 = 0) :
    source.Legible sure flags false ((shape.map text).render names).toList (shape.map program).run := by
  refine .whole _ _ (spells_node flags source readable shape names declared known admitted enabled text
    (fun child e => sure → e.Carries (program child)) _ ?_ fun node mirrors yes => ?_)
  · intro slot member
    have operand := each slot.1 (shape.slots_level slot member).1
    exact legible_taken source sure flags readable default _ _ _ operand slot.2 (slots slot member ▸ Nat.zero_le _)
  · exact Expr.mirrors_carry program shape node (shape.mirrors_weaker _ _ (fun _ _ carries => carries yes) node mirrors)

include integral

theorem legible_node (signed : ∀ value name, shape = .constant value name →
      flags.numeric = true ∨ value.den = 1 ∧ 0 ≤ value.num)
    (tolerates : sure → ∀ op left right span, shape = .binary op left right span →
      op.Tolerates (bars left) (bars right)) :
    source.Legible sure flags (Decimal.barred (shape.map bars)) ((shape.map text).render names).toList
      (shape.map program).run := by
  have bracketed := legible_bracketed source sure flags readable default shape names declared admitted enabled bars text
    program each
  cases shape with
  | constant value name => exact legible_constant source sure flags readable default value name names (signed value name rfl)
  | parameter index => exact bracketed (by simp) (by simp [Shape.slots])
  | member source => exact bracketed (by simp) (by simp [Shape.slots])
  | unary op operand span =>
      cases op with
      | complement => exact absurd (integral.symm.trans enabled) (by decide)
      | negate =>
          have negated := legible_negated source sure flags readable enabled span _ _ _ (each operand List.mem_cons_self)
          rwa [← String.toList_append] at negated
  | binary op left right span =>
      have inner := prints_binary source sure flags readable default op enabled (bars left) (bars right)
        (fun yes => tolerates yes op left right span rfl) _ _ _ (program right) span (each left List.mem_cons_self)
        (each right (by simp [Shape.children]))
      have grouped := spells_group flags source readable _ _ inner
      refine .whole _ _ (source.spells_lower _ Phrase.primary _ _ ?_ (by decide))
      simpa [Shape.map, Shape.render] using grouped
  | convert conversion operand span =>
      cases conversion with
      | integral => exact bracketed (by simp) (by simp [Shape.slots])
      | identity =>
          have kept := legible_identity source sure flags readable enabled span _ _ _ (each operand List.mem_cons_self)
          rwa [← String.toList_append] at kept
  | call routine args span => exact bracketed (by simp) (by simp [Shape.slots])
  | conditional condition accepted rejected => exact bracketed (by simp) (by simp [Shape.slots])

end

end

end Source

namespace Graph

def bars (graph : Graph Rat σ) (index : Nat) : Bool := graph.cells.worth Decimal.barred false index

-- No fraction stands where it matters that its bar is taken apart.
def Grouped (graph : Graph Rat σ) : Prop :=
  ∀ (index : Nat) (op : BinaryOperator) (left right : Nat) (span : Span),
    graph.cells[index]? = some (.binary op left right span) → op.Tolerates (graph.bars left) (graph.bars right)

end Graph

theorem Source.legible_graph (source : Source Rat σ) (flags : Flags) (readable : source.Readable flags)
    (default : source.grammar.reader = Numeric.read) (integral : flags.integer = false) (graph : Graph Rat σ)
    (names : List String) (declared : source.parameters.names = names)
    (admitted : graph.Uniform fun shape => shape.Admitted source.grammar names.length)
    (enabled : graph.Uniform (Shape.Enabled flags))
    (signed : flags.numeric = true ∨ ∀ (index : Nat) (value : Rat) (name : Option String),
      graph.cells[index]? = some (.constant value name) → value.den = 1 ∧ 0 ≤ value.num) :
    source.Legible graph.Grouped flags (graph.bars graph.cells.top) (graph.render names).toList graph.run := by
  rw [Graph.render, Graph.run, Graph.fold_top, Graph.fold_top]
  refine Cells.entry_induction (P := fun index => source.Legible graph.Grouped flags (graph.bars index)
    (graph.cells.worth (Shape.render names) "" index).toList (graph.cells.worth Shape.run _ index)) graph.cells
    admitted.earlier ?_ _ (Cells.top_bound _ admitted.rooted)
  intro index shape read each
  have worth {α : Type} (layer : Shape Rat σ α → α) (fallback : α) :=
    graph.cells.worth_read layer fallback admitted.earlier index shape read
  rw [Graph.bars, worth, worth, worth]
  refine legible_node _ _ flags readable default integral shape names declared (admitted.every index shape read)
    (enabled.every index shape read) graph.bars _ _ each ?_ ?_
  · rintro value name rfl
    exact signed.imp_right fun natural => natural index value name read
  · rintro grouped op left right span rfl
    exact grouped index op left right span read

theorem Compiled.call_follows [Numeric T] (compiled other : Compiled T σ) (same : compiled.parameters = other.parameters)
    (follows : ∀ inputs, Run.Follows (compiled.graph.run inputs) (other.graph.run inputs)) (inputs : List T) :
    Run.Follows (compiled.call inputs) (other.call inputs) := by
  rw [Compiled.call, Compiled.call, same]
  split
  · exact follows inputs
  · exact Run.follows_refl _

namespace Evaluator

-- What a program over decimals prints compiles again. Where no fraction is taken apart to its harm it gives what the
-- program gives, wherever that gives anything; with the optimizer as well, if its host allows for that and a build that
-- checks for overflow does not stop it.
theorem rendered_carries (settings : Settings Rat σ) (evaluator : Evaluator Rat σ) (built : settings.build = .ok evaluator)
    (default : settings.reader = none) (expression : String) (names : List String)
    (idle : ∀ c ∈ settings.whitespace, evaluator.grammar.Idle names c)
    (plain : evaluator.grammar.caseSensitive = true ∨
      (∀ entry ∈ evaluator.grammar.identifiers, ∀ c ∈ entry.template.name.toList, Text.isAscii c = true) ∧
        ∀ name ∈ names, ∀ c ∈ name.toList, Text.isAscii c = true)
    (optimize : Bool) (before : σ) (compiled : Compiled Rat σ)
    (done : ((evaluator.compileWith expression names optimize).run before).1 = .ok compiled)
    (signed : settings.flags.numeric = true ∨ ∀ (index : Nat) (value : Rat) (name : Option String),
      compiled.graph.cells[index]? = some (.constant value name) → value.den = 1 ∧ 0 ≤ value.num) :
    ∃ again : Compiled Rat σ,
      (∀ now, (evaluator.compileWith compiled.render names false).run now = (.ok again, now)) ∧
      (compiled.graph.Grouped → ∀ inputs, Run.Follows (compiled.call inputs) (again.call inputs)) ∧
      ∀ (build : Build) now, (build = .checked → ¬ again.graph.FoldingOverflows now) → ∃ optimized reports after,
        (evaluator.compileWith compiled.render names true).run now = (.ok optimized, after) ∧
        again.graph.OptimizesTo build now (optimized.graph, reports) ∧
        (compiled.graph.Grouped → again.graph.Deterministic → ∀ inputs state value,
          (compiled.call inputs).outcome state = .ok value → optimized.Yields build inputs state (.ok value)) := by
  obtain ⟨same, declared, admitted, enabled⟩ :=
    compiled_uniform settings evaluator built expression names optimize before compiled done
  have integral : settings.flags.integer = false := by
    obtain ⟨-, -, integer, -⟩ := (Flags.contains_iff _ _).mp (Grammar.build_supported settings evaluator built)
    exact Bool.eq_false_iff.mpr fun enabled => absurd (integer enabled) (by decide)
  have readable := built_readable settings evaluator built default names idle declared plain compiled.render
  have reader := default_reader settings evaluator built default
  have legible := Source.legible_graph _ settings.flags readable reader integral compiled.graph names rfl admitted enabled
    signed
  have prints := Source.legible_taken _ _ settings.flags readable reader _ _ _ legible 0 (Nat.zero_le _)
  rw [show compiled.graph.render names = compiled.render by rw [Compiled.render, same]] at prints
  obtain ⟨e, tree, carries⟩ := spelled_tree settings evaluator built _ compiled.render _ _ prints
  have bound := (Grammar.bind_parameters_declared _ _ _).mpr ⟨rfl, declared⟩
  have compiles (optimize : Bool) (now : σ) := evaluator.compile_run compiled.render names optimize now _ e bound tree
  have ran : (Graph.ofExpr e).run = e.run := compiled_fold settings evaluator built _ compiled.render e tree Shape.run _
  have follows (grouped : compiled.graph.Grouped) : ∀ inputs, Run.Follows (compiled.call inputs)
      (((finish compiled.render names false e).run before).1.call inputs) := by
    refine compiled.call_follows _ same fun inputs => ?_
    rw [finish_raw, ran]
    exact carries grouped inputs
  refine ⟨((finish compiled.render names false e).run before).1, fun now => compiles false now, follows, ?_⟩
  intro build now calm
  refine ⟨_, _, _, compiles true now, ⟨rfl, calm⟩, fun grouped deterministic inputs state value done => ?_⟩
  have kept := compiled_preserves settings evaluator built _ compiled.render e tree deterministic names now state inputs
    value (follows grouped inputs state value done).1
  have normal := Graph.optimized_normal (Graph.ofExpr e) now (Graph.of_expr_earlier e)
    (Graph.early_settled _ deterministic)
  exact ⟨kept, fun _ => Graph.calm_of_ok _ normal.normal.earlier Decimal.overflow_fails inputs state value
    ((Compiled.call_ok _ inputs state value).mp kept).2⟩

def decimals : Settings Rat Unit := .ofFlags ⟨true, true, false, true⟩

-- `x * 0.5 - 3`
def lowered : Graph Rat Unit :=
  ⟨#[.parameter 0, .constant (1 / 2) none, .binary .mul 0 1 ⟨1, 2⟩, .constant 3 none, .binary .sub 2 3 ⟨5, 6⟩]⟩

-- The fraction is read as two operands, which makes no difference here.
theorem lowered_carried :
    ∃ evaluator compiled again, decimals.build = .ok evaluator ∧
      ((evaluator.compileWith "x*0.5-3" ["x"] false).run ()).1 = .ok compiled ∧ compiled.graph.Grouped ∧
      (evaluator.compileWith "((x * 1/2) - 3)" ["x"] false).run () = (.ok again, ()) ∧
      Run.Follows (compiled.call [4]) (again.call [4]) := by
  obtain ⟨evaluator, built, sensitive, done⟩ : ∃ evaluator, decimals.build = .ok evaluator ∧
      evaluator.grammar.caseSensitive = true ∧
      ((evaluator.compileWith "x*0.5-3" ["x"] false).run ()).1 = .ok ⟨"x*0.5-3", ["x"], lowered, none⟩ := by
    refine ⟨_, rfl, rfl, ?_⟩
    with_unfolding_all rfl
  have rendered : (⟨"x*0.5-3", ["x"], lowered, none⟩ : Compiled Rat Unit).render = "((x * 1/2) - 3)" := by
    with_unfolding_all rfl
  have grouped : lowered.Grouped := by
    intro index op left right span read
    have entry := Array.mem_of_getElem? read
    simp only [lowered, List.mem_toArray, List.mem_cons, List.not_mem_nil, reduceCtorEq, or_false, false_or] at entry
    rcases entry with entry | entry <;> cases entry <;> trivial
  obtain ⟨again, compiles, follows, -⟩ := rendered_carries decimals evaluator built rfl "x*0.5-3" ["x"]
    (by simp [decimals, Settings.ofFlags]) (.inl sensitive) false () _ done (.inl rfl)
  rw [rendered] at compiles
  exact ⟨evaluator, _, again, built, done, grouped, compiles (), follows grouped [4]⟩

-- Below another bar it does: `x / 0.5` is read again as `(x / 1) / 2`.
theorem quotient_regrouped :
    ∃ evaluator compiled again, (Settings.ofFlags Decimal.flags : Settings Rat Unit).build = .ok evaluator ∧
      (evaluator.compileWith "x/0.5" ["x"] false).run () = (.ok compiled, ()) ∧ compiled.render = "(x / 1/2)" ∧
      (evaluator.compileWith "(x / 1/2)" ["x"] false).run () = (.ok again, ()) ∧
      (compiled.call [1]).outcome () = .ok 2 ∧ (again.call [1]).outcome () = .ok (1 / 2) := by
  refine ⟨_, ⟨"x/0.5", ["x"], ⟨#[.parameter 0, .constant (1 / 2) none, .binary .div 0 1 ⟨1, 2⟩]⟩, none⟩,
    ⟨"(x / 1/2)", ["x"], ⟨#[.parameter 0, .constant 1 none, .binary .div 0 1 ⟨3, 4⟩, .constant 2 none,
      .binary .div 2 3 ⟨6, 7⟩]⟩, none⟩, rfl, ?_, ?_, ?_, ?_, ?_⟩ <;> with_unfolding_all rfl

end Evaluator

end Formula
