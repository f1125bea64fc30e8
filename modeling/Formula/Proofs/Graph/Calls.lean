import Formula.Proofs.Graph.Compiled
import Formula.Proofs.Graph.Trace

set_option autoImplicit false

namespace Formula

variable {T σ α : Type}

def Rewrite.Effect.run [Numeric T] (effect : Effect) (operand : Run σ T) (constant : T) (span : Span) : Run σ T :=
  match effect with
  | .operand => operand
  | .constant => return constant
  | .negated => operand >>= fun value => Shape.locate span (Run.ofExcept (Numeric.unary .negate value))

namespace Run

-- Where the one run succeeds, the other gives the same value and ends in the same state.
def Follows (action other : Run σ α) : Prop :=
  ∀ state value, action.outcome state = .ok value →
    other.outcome state = .ok value ∧ other.after state = action.after state

theorem follows_refl (action : Run σ α) : Follows action action := fun _ _ done => ⟨done, rfl⟩

theorem follows_trans (first second third : Run σ α) (before : Follows first second) (after : Follows second third) :
    Follows first third := by
  intro state value done
  obtain ⟨given, kept⟩ := before state value done
  obtain ⟨found, same⟩ := after state value given
  exact ⟨found, same.trans kept⟩

theorem follows_congruence : Congruence (fun α (action other : Run σ α) => Follows action other) fun _ _ => True where
  result _ outcome := follows_refl _
  bind _ _ action other next later first rest := by
    intro state value done
    rw [outcome_bind] at done
    rw [outcome_bind, after_bind, after_bind]
    cases here : action.outcome state with
    | error error => simp [here] at done
    | ok a =>
        rw [here] at done
        obtain ⟨given, kept⟩ := first state a here
        rw [given, kept]
        exact rest a (action.after state) value done
  locate _ span place action other _ follows := by
    intro state value done
    obtain ⟨given, kept⟩ := follows state value ((locate_ok span action state value).mp done)
    exact ⟨(locate_ok place other state value).mpr given, by rw [locate_after, locate_after, kept]⟩

def Returns (action : Run σ α) (value : α) : Prop := ∀ state, action.outcome state = .ok value ∧ action.after state = state

theorem returns_of_except (outcome : Except EvalError α) (value : α) (computed : outcome = .ok value) :
    Returns (ofExcept outcome : Run σ α) value := fun _ => ⟨computed, rfl⟩

theorem returns_locate (span : Span) (action : Run σ α) (value : α) (returns : Returns action value) :
    Returns (Shape.locate span action) value :=
  fun state => ⟨(locate_ok span action state value).mpr (returns state).1, (locate_after span action state).trans (returns state).2⟩

theorem returns_follows (action : Run σ α) (value : α) (returns : Returns action value) :
    Follows action (return value) := by
  intro state result done
  obtain ⟨given, kept⟩ := returns state
  exact ⟨given.symm.trans done, kept.symm⟩

theorem apply_follows (operand : Run σ α) (apply : α → Except EvalError α) (span : Span) (other : Run σ α)
    (takes : ∀ state value result, operand.outcome state = .ok value → apply value = .ok result →
      other.outcome state = .ok result ∧ other.after state = operand.after state) :
    Follows (operand >>= fun value => Shape.locate span (ofExcept (apply value))) other := by
  intro state result done
  rw [outcome_bind] at done
  rw [after_bind]
  cases known : operand.outcome state with
  | error error => simp [known] at done
  | ok value =>
      simp only [known, locate_ok, locate_after] at done ⊢
      exact takes state value result known done

def Keeps (action : Run σ α) : Prop := ∀ state, action.after state = state

theorem keeps_congruence : Congruence (fun α (action _ : Run σ α) => Keeps action) Eq where
  result _ outcome _ := rfl
  bind _ _ action _ next _ first rest := by
    intro state
    rw [after_bind]
    cases action.outcome state with
    | error error => exact first state
    | ok a => exact (rest a _).trans (first state)
  locate _ span _ action _ _ keeps := by
    intro state
    rw [locate_after]
    exact keeps state

theorem effect_follows [Numeric T] (effect : Rewrite.Effect) (operand : Run σ T) (apply : T → Except EvalError T)
    (constant : T) (span : Span) (holds : ∀ value result, apply value = .ok result → effect.Holds value constant result)
    (calm : effect = .constant → Keeps operand) :
    Follows (operand >>= fun value => Shape.locate span (ofExcept (apply value)))
      (effect.run operand constant span) := by
  refine apply_follows operand apply span _ fun state value result known done => ?_
  have computed := holds value result done
  cases effect with
  | operand => exact ⟨known.trans (congrArg _ computed), rfl⟩
  | constant =>
      -- The operand no longer runs.
      exact ⟨congrArg _ computed, (calm rfl state).symm⟩
  | negated =>
      simp only [Rewrite.Effect.run, outcome_bind, after_bind, known, locate_ok, locate_after]
      exact ⟨computed, rfl⟩

end Run

namespace Borrowed

structure Pure (borrowed : Borrowed T σ) : Prop where
  settled : borrowed.Settled
  kept : ∀ args, Run.Keeps (borrowed.use args)

def isImpure : Borrowed T σ → Bool
  | .routine function => !function.isFoldable
  | .member _ => false

theorem logged_keeps (borrowed : Borrowed T σ) (calm : borrowed.isImpure = false)
    (kept : ∀ args, Run.Keeps (borrowed.use args)) (args : List T) : Run.Keeps (borrowed.logged.use args) := by
  rintro ⟨state, log⟩
  refine Prod.ext (((Run.erases_use borrowed args) state log).2.trans (kept args state)) ?_
  cases borrowed with
  | routine routine =>
      have foldable : routine.isFoldable = true := by simpa [isImpure] using calm
      simp only [logged, use, Routine.call]
      split
      · exact if_pos foldable
      · rfl
  | member source =>
      obtain ⟨name, source, tag⟩ := source
      cases source with
      | property get => rfl
      | cell get => exact congrArg Prod.snd (Run.read_cell name (fun known : σ × Log T σ => get known.1) tag _).2

theorem calm_keeps (borrowed : Borrowed T σ) (calm : borrowed.isImpure = false)
    (pure : borrowed.isEarly = true → borrowed.Pure) (args : List T) : Run.Keeps (borrowed.use args) := by
  by_cases early : borrowed.isEarly = true
  · exact (pure early).kept args
  · refine fun state => borrowed.variable_after ?_ args state
    cases borrowed <;> simp_all [isEarly, isImpure, isVariable]

theorem pure_returns (borrowed : Borrowed T σ) (early : borrowed.isEarly = true) (pure : borrowed.Pure) (args : List T)
    (host : σ) (value : T) (computed : (borrowed.use args).outcome host = .ok value) :
    Run.Returns (borrowed.logged.use args) value := by
  have calm : borrowed.isImpure = false := by
    cases borrowed with
    | routine function => exact congrArg not early
    | member source => rfl
  rintro ⟨state, log⟩
  refine ⟨?_, borrowed.logged_keeps calm pure.kept args (state, log)⟩
  rw [(Run.erases_use borrowed args state log).1, pure.settled args state host, computed]

end Borrowed

namespace Cells

def CallsImpure (cells : Cells T σ) (root : Nat) : Prop :=
  ∃ index ∈ cells.orderOf root, ∃ (shape : Shape T σ Nat) (borrowed : Borrowed T σ),
    cells[index]? = some shape ∧ shape.borrowed? = some borrowed ∧ borrowed.isImpure = true

end Cells

variable [Numeric T]

-- An identity fires on a node: the operand that is open, what the node makes of it, the constant beside it
-- and what is left of the two.
inductive Rewrite.Simplifies (cells : Cells T σ) :
    Shape T σ Nat → Nat → (T → Except EvalError T) → T → Effect → Prop
  | left (op : BinaryOperator) (left right : Nat) (span : Span) (a : T) (effect : Effect)
      (leftKnown : cells.constantAt? left = some a) (rightOpen : cells.constantAt? right = none)
      (identity : LeftIdentity a op effect) :
      Simplifies cells (.binary op left right span) right (fun operand => Numeric.binary op a operand) a effect
  | right (op : BinaryOperator) (left right : Nat) (span : Span) (b : T) (effect : Effect)
      (leftOpen : cells.constantAt? left = none) (rightKnown : cells.constantAt? right = some b)
      (identity : RightIdentity b op effect) :
      Simplifies cells (.binary op left right span) left (fun operand => Numeric.binary op operand b) b effect

namespace Graph

-- Functions that are not called impure, constructors and properties are what their names say.
def PureEarly (graph : Graph T σ) : Prop :=
  ∀ borrowed, graph.cells.Borrows borrowed → borrowed.isEarly = true → borrowed.Pure

def Simplifies (graph : Graph T σ) (host : σ) (operand : Nat) (apply : T → Except EvalError T) (constant : T)
    (effect : Rewrite.Effect) : Prop :=
  ∃ (index : Nat) (shape : Shape T σ Nat), graph.cells[index]? = some shape ∧
    Rewrite.Simplifies (Pass.carryAll graph.cells host).1.cells (shape.map (Pass.carryAll graph.cells host).1.placeOf)
      operand apply constant effect

def IdentitiesHold (graph : Graph T σ) (host : σ) : Prop :=
  ∀ operand apply constant effect, graph.Simplifies host operand apply constant effect →
    ∀ value result, apply value = .ok result → effect.Holds value constant result

-- No operand that a constant annihilates calls an impure function.
def SparesCalls (graph : Graph T σ) (host : σ) : Prop :=
  ∀ operand apply constant, graph.Simplifies host operand apply constant .constant →
    ¬ (Pass.carryAll graph.cells host).1.cells.CallsImpure operand

theorem exact_identities [Exact T] (graph : Graph T σ) (host : σ) : graph.IdentitiesHold host := by
  rintro operand apply constant effect ⟨index, shape, -, simplifies⟩ value result done
  generalize shape.map (Pass.carryAll graph.cells host).1.placeOf = moved at simplifies
  cases simplifies with
  | left op left right span _ _ leftKnown rightOpen identity => exact Exact.left _ _ _ op effect identity done
  | right op left right span _ _ leftOpen rightKnown identity => exact Exact.right _ _ _ op effect identity done

end Graph

def Trails (program other : Program T (σ × Log T σ)) : Prop := ∀ inputs, Run.Follows (program inputs) (other inputs)

theorem trails_respected : Respects (Shape.traced : Shape T σ _ → _) Trails where
  refl _ _ := Run.follows_refl _
  trans _ _ _ before after inputs := Run.follows_trans _ _ _ (before inputs) (after inputs)
  congr shape f g each := by
    intro inputs
    rw [Shape.traced, Shape.traced, Shape.logged_map, Shape.logged_map]
    refine Run.parallel_related _ _ Run.follows_congruence inputs f g Eq ?_ shape.logged shape.logged
      (Shape.parallel_self _ _ _ (fun _ _ => rfl) fun _ => trivial) fun child isChild => ?_
    · rintro borrowed _ rfl args
      exact Run.follows_refl _
    · rw [Shape.logged_children] at isChild
      exact each child isChild inputs

omit [Numeric T] in
theorem Shape.parallel_logged (places : Span → Span → Prop) (a b : Shape T σ Nat) (parallel : a.Parallel Eq places b) :
    a.logged.Parallel Eq places b.logged := by
  cases parallel with
  | constant value name other => exact .constant value name other
  | parameter index => exact .parameter index
  | member source other used => exact .member _ _ (congrArg Borrowed.logged used)
  | unary op operand span place located => exact .unary op operand span place located
  | binary op left right span place located => exact .binary op left right span place located
  | convert conversion operand span place located => exact .convert conversion operand span place located
  | call routine other args span place used located => exact .call _ _ args span place (congrArg Borrowed.logged used) located
  | conditional condition accepted rejected => exact .conditional condition accepted rejected

theorem trails_like [Discerning T] (allowed : Borrowed T σ → Prop)
    (coherent : ∀ a b, allowed a → allowed b → a.identical b = true → a = b) :
    RespectsLike (Shape.traced : Shape T σ _ → _) Trails allowed := by
  intro a b allowedA allowedB like known inputs
  have parallel := Shape.parallel_logged _ a b
    (Cells.alike_parallel _ allowed coherent a b allowedA allowedB like fun _ _ _ _ => trivial)
  rw [Shape.traced, Shape.traced, Shape.logged_map, Shape.logged_map]
  refine Run.parallel_related _ _ Run.follows_congruence inputs known known Eq ?_ _ _ parallel fun child _ =>
    Run.follows_refl _
  rintro borrowed _ rfl args
  exact Run.follows_refl _

section

variable (cells : Cells T σ) (earlier : cells.Earlier) (nothing : Program T (σ × Log T σ))

include earlier

theorem calm_worth (pure : ∀ borrowed, cells.Borrows borrowed → borrowed.isEarly = true → borrowed.Pure) (inputs : List T)
    (index : Nat) (bound : index < cells.size) (calm : ¬ cells.CallsImpure index) :
    Run.Keeps (cells.worth Shape.traced nothing index inputs) := by
  revert calm
  apply Cells.entry_induction cells earlier _ index bound
  intro index shape read ih calm
  have below : ∀ child ∈ shape.children, ¬ cells.CallsImpure child := by
    rintro child isChild ⟨deeper, member, found⟩
    exact calm ⟨deeper, (Cells.mem_order cells earlier index deeper shape read).mpr (.inl ⟨child, isChild, member⟩), found⟩
  have here : ∀ borrowed, shape.borrowed? = some borrowed → ∀ args, Run.Keeps (borrowed.logged.use args) := by
    intro borrowed used
    have quiet : borrowed.isImpure = false := by
      by_contra impure
      exact calm ⟨index, Cells.order_self cells earlier index (Cells.read_bound cells index shape read), shape, borrowed,
        read, used, by simpa using impure⟩
    exact borrowed.logged_keeps quiet (borrowed.calm_keeps quiet (pure borrowed ⟨index, shape, read, used⟩))
  rw [Cells.worth_read Shape.traced nothing cells earlier index shape read, Shape.traced, Shape.logged_map]
  refine Run.parallel_related _ _ Run.keeps_congruence inputs (cells.worth Shape.traced nothing)
    (cells.worth Shape.traced nothing) (fun used _ => ∀ args, Run.Keeps (used.use args)) (fun _ _ keeps => keeps)
    shape.logged shape.logged (Shape.parallel_self _ _ _ ?_ fun _ => rfl) fun child isChild => ?_
  · intro used same
    rw [Shape.logged_borrowed] at same
    obtain ⟨borrowed, uses, rfl⟩ := Option.map_eq_some_iff.mp same
    exact here borrowed uses
  · rw [Shape.logged_children] at isChild
    exact ih child isChild (below child isChild)

theorem traced_constant (index : Nat) (value : T) (known : cells.constantAt? index = some value) :
    cells.worth Shape.traced nothing index = fun _ => return value := by
  obtain ⟨name, read⟩ := Cells.constant_read cells index value known
  rw [Cells.worth_read Shape.traced nothing cells earlier index _ read]
  rfl

theorem traced_constants (inputs : List T) (args : List Nat) (values : List T)
    (known : Rewrite.constants? cells args = some values) :
    Shape.runAll inputs (args.map (cells.worth Shape.traced nothing)) = return values := by
  replace known := Rewrite.constants_each cells args values known
  induction known with
  | nil => rfl
  | cons here _ ih =>
      rw [List.map_cons, Shape.runAll, traced_constant cells earlier nothing _ _ here, ih]
      rfl

theorem effect_traced (inputs : List T) (effect : Rewrite.Effect) (operand place : Nat) (constant : T) (span : Span)
    (known : cells.constantAt? place = some constant) :
    (effect.place operand place span).worth Shape.traced (cells.worth Shape.traced nothing) inputs =
      effect.run (cells.worth Shape.traced nothing operand inputs) constant span := by
  cases effect with
  | operand => rfl
  | constant => exact congrFun (traced_constant cells earlier nothing place constant known) inputs
  | negated => rfl

theorem rule_trails [Discerning T] (host : σ) (shape : Shape T σ Nat) (replacement : Replacement T σ)
    (rule : Rewrite.Rule cells host shape replacement)
    (pure : ∀ borrowed, shape.borrowed? = some borrowed → borrowed.isEarly = true → borrowed.Pure)
    (holds : ∀ operand apply constant effect, Rewrite.Simplifies cells shape operand apply constant effect →
      ∀ value result, apply value = .ok result → effect.Holds value constant result)
    (calm : ∀ operand apply constant, Rewrite.Simplifies cells shape operand apply constant .constant →
      ∀ inputs, Run.Keeps (cells.worth Shape.traced nothing operand inputs)) :
    Trails (Shape.traced (shape.map (cells.worth Shape.traced nothing)))
      (replacement.worth Shape.traced (cells.worth Shape.traced nothing)) := by
  have constant := traced_constant cells earlier nothing
  intro inputs
  cases rule with
  | unary op operand span a value known computed =>
      change Run.Follows (cells.worth Shape.traced nothing operand inputs >>= _) (return value)
      rw [constant operand a known]
      exact Run.returns_follows _ value (Run.returns_locate span _ value (Run.returns_of_except _ value computed))
  | binary op left right span a b value leftKnown rightKnown computed =>
      change Run.Follows (cells.worth Shape.traced nothing left inputs >>= fun _ =>
        cells.worth Shape.traced nothing right inputs >>= _) (return value)
      rw [constant left a leftKnown, constant right b rightKnown]
      exact Run.returns_follows _ value (Run.returns_locate span _ value (Run.returns_of_except _ value computed))
  | left op left right span a effect leftKnown rightOpen identity =>
      have fires : Rewrite.Simplifies cells (.binary op left right span) right _ a effect :=
        .left op left right span a effect leftKnown rightOpen identity
      rw [effect_traced cells earlier nothing inputs effect right left a span leftKnown]
      change Run.Follows (cells.worth Shape.traced nothing left inputs >>= fun _ =>
        cells.worth Shape.traced nothing right inputs >>= _) _
      rw [constant left a leftKnown]
      exact Run.effect_follows effect _ _ a span (holds _ _ _ _ fires) (by rintro rfl; exact calm _ _ _ fires inputs)
  | right op left right span b effect leftOpen rightKnown identity =>
      have fires : Rewrite.Simplifies cells (.binary op left right span) left _ b effect :=
        .right op left right span b effect leftOpen rightKnown identity
      rw [effect_traced cells earlier nothing inputs effect left right b span rightKnown]
      change Run.Follows (cells.worth Shape.traced nothing left inputs >>= fun _ =>
        cells.worth Shape.traced nothing right inputs >>= _) _
      rw [constant right b rightKnown]
      exact Run.effect_follows effect _ _ b span (holds _ _ _ _ fires) (by rintro rfl; exact calm _ _ _ fires inputs)
  | noop conversion operand span noop =>
      refine Run.apply_follows _ conversion.apply span _ fun state value result known done => ?_
      rw [Discerning.noop conversion value noop] at done
      exact ⟨known.trans done, rfl⟩
  | convert conversion operand span a value known computed =>
      change Run.Follows (cells.worth Shape.traced nothing operand inputs >>= _) (return value)
      rw [constant operand a known]
      exact Run.returns_follows _ value (Run.returns_locate span _ value (Run.returns_of_except _ value computed))
  | call routine args span values value foldable known computed =>
      have given := (Borrowed.routine routine).pure_returns foldable (pure _ rfl foldable) values host value computed
      change Run.Follows (Shape.runAll inputs (args.map (cells.worth Shape.traced nothing)) >>= _) (return value)
      rw [traced_constants cells earlier nothing inputs args values known]
      exact Run.returns_follows _ value (Run.returns_locate span _ value given)
  | member source value readOnly computed =>
      have given := (Borrowed.member source).pure_returns readOnly (pure _ rfl readOnly) [] host value computed
      exact Run.returns_follows _ value given
  | conditional condition accepted rejected a known =>
      change Run.Follows (cells.worth Shape.traced nothing condition inputs >>= _) _
      rw [constant condition a known]
      change Run.Follows (if Numeric.isTruthy a = true then _ else _)
        (cells.worth Shape.traced nothing (if Numeric.isTruthy a = true then accepted else rejected) inputs)
      split
      · exact Run.follows_refl _
      · exact Run.follows_refl _

end

namespace Rewrite

theorem simplifies_operand (cells : Cells T σ) (shape : Shape T σ Nat) (operand : Nat) (apply : T → Except EvalError T)
    (constant : T) (effect : Effect) (fires : Simplifies cells shape operand apply constant effect) :
    operand ∈ shape.children := by
  cases fires with
  | left op left right span _ _ leftKnown rightOpen identity => simp [Shape.children]
  | right op left right span _ _ leftOpen rightKnown identity => simp [Shape.children]

theorem simplifies_annihilated (cells : Cells T σ) (shape : Shape T σ Nat) (operand : Nat)
    (apply : T → Except EvalError T) (constant : T) (fires : Simplifies cells shape operand apply constant .constant) :
    ∃ op left right span, shape = .binary op left right span ∧ op ∈ [.mul, .bitAnd, .shl, .shr] ∧
      operand ∈ [left, right] := by
  cases fires with
  | left op left right span _ _ leftKnown rightOpen identity =>
      cases identity with
      | zeroConstant _ zero known => exact ⟨op, left, operand, span, rfl, known, by simp⟩
  | right op left right span _ _ leftOpen rightKnown identity =>
      cases identity with
      | zeroConstant zero known =>
          refine ⟨op, operand, right, span, rfl, ?_, by simp⟩
          simp only [List.mem_cons, List.not_mem_nil, or_false] at known ⊢
          exact known.imp id .inl

end Rewrite

namespace Graph

theorem optimized_trails [Discerning T] (graph : Graph T σ) (host : σ) (wellFormed : graph.WellFormed)
    (pure : graph.PureEarly) (identities : graph.IdentitiesHold host) (spares : graph.SparesCalls host) :
    Trails graph.traced (graph.optimized host).1.traced := by
  have settled : graph.cells.EarlySettled := fun borrowed uses early => (pure borrowed uses early).settled
  have sound := Pass.carry_all_sound graph.cells host wellFormed.earlier
  have uses := Pass.carry_all_borrows graph.cells host wellFormed.earlier
  refine optimized_related Shape.traced _ Trails host graph trails_respected (trails_like _ wellFormed.coherent)
    wellFormed.earlier settled fun index shape read state replacement rule => ?_
  refine rule_trails _ sound.earlier _ state _ replacement rule (fun borrowed used => ?_)
    (fun operand apply constant effect fires => identities operand apply constant effect ⟨index, shape, read, fires⟩)
    fun operand apply constant fires inputs => ?_
  · rw [Shape.borrowed_map] at used
    exact pure borrowed ⟨index, shape, read, used⟩
  · have isChild := Rewrite.simplifies_operand _ _ operand apply constant _ fires
    rw [Shape.children_map] at isChild
    obtain ⟨child, below, rfl⟩ := List.mem_map.mp isChild
    have bound := Nat.lt_trans (wellFormed.earlier index shape read child below) (Cells.read_bound _ index shape read)
    exact calm_worth _ sound.earlier _ (fun borrowed used => pure borrowed (uses borrowed used)) inputs _
      (sound.bound child bound) (spares _ apply constant ⟨index, shape, read, fires⟩)

theorem optimized_calls [Discerning T] (graph : Graph T σ) (before : σ) (wellFormed : graph.WellFormed)
    (pure : graph.PureEarly) (identities : graph.IdentitiesHold before) (spares : graph.SparesCalls before) (now : σ)
    (inputs : List T) (value : T) (given : (graph.run inputs).outcome now = .ok value) :
    ((graph.optimized before).1.run inputs).outcome now = .ok value ∧
      (graph.optimized before).1.invocations inputs now = graph.invocations inputs now ∧
      ((graph.optimized before).1.run inputs).after now = (graph.run inputs).after now := by
  have settled : graph.cells.EarlySettled := fun borrowed uses early => (pure borrowed uses early).settled
  have raw := graph.traced_erases wellFormed.earlier inputs now []
  have plain := (graph.optimized before).1.traced_erases
    (optimized_normal graph before wellFormed.earlier settled).normal.earlier inputs now []
  obtain ⟨found, same⟩ := optimized_trails graph before wellFormed pure identities spares inputs (now, []) value
    (raw.1.trans given)
  exact ⟨plain.1.symm.trans found, congrArg Prod.snd same,
    plain.2.symm.trans ((congrArg Prod.fst same).trans raw.2)⟩

end Graph

namespace Evaluator

-- A text that was optimized makes the calls of impure functions that it makes as it stands, if the identities that
-- fired are true of its type and none of them took such a call away.
theorem optimized_calls_kept [Discerning T] (settings : Settings T σ) (evaluator : Evaluator T σ)
    (built : settings.build = .ok evaluator) (expression : String) (names : List String) (before : σ)
    (raw optimized : Compiled T σ) (plain : ((evaluator.compileWith expression names false).run before).1 = .ok raw)
    (shortened : ((evaluator.compileWith expression names true).run before).1 = .ok optimized)
    (pure : raw.graph.PureEarly) (identities : raw.graph.IdentitiesHold before) (spares : raw.graph.SparesCalls before)
    (now : σ) (inputs : List T) (value : T) (called : (raw.call inputs).outcome now = .ok value) :
    (optimized.call inputs).outcome now = .ok value ∧
      optimized.graph.invocations inputs now = raw.graph.invocations inputs now ∧
      (optimized.call inputs).after now = (raw.call inputs).after now := by
  obtain ⟨parameters, e, found, rfl, rfl⟩ := compile_both evaluator expression names before raw optimized plain shortened
  have wellFormed := compiled_well_formed settings evaluator built parameters expression e found
  obtain ⟨declared, given⟩ := (Compiled.call_ok _ inputs now value).mp called
  obtain ⟨same, calls, after⟩ :=
    Graph.optimized_calls (Graph.ofExpr e) before wellFormed pure identities spares now inputs value given
  refine ⟨(Compiled.call_ok _ inputs now value).mpr ⟨declared, same⟩, calls, ?_⟩
  rw [Compiled.call, Compiled.call, if_pos declared, if_pos declared]
  exact after

def ticking : Routine (Integer .signed) Nat :=
  ⟨.impureFunction, "tick", 0, fun _ count => (.ok (Integer.ofBits .signed (BitVec.ofNat 64 count)), count + 1), 0⟩

-- The state of the host is how often it was asked.
def clock : Settings (Integer .signed) Nat :=
  ⟨⟨true, false, true, true⟩, [⟨"host", none, [("tick", .routine .impureFunction 0 ticking.body)]⟩], [], false, true, none⟩

-- `0*x+tick()`
def counted : Expr (Integer .signed) Nat :=
  .node (.binary .add (.node (.binary .mul (.node (.constant (Integer.ofBits .signed 0) none)) (.node (.parameter 0))
    ⟨1, 2⟩)) (.node (.call ticking [] ⟨4, 8⟩)) ⟨3, 4⟩)

theorem counted_reads (index : Nat) (shape : Shape (Integer .signed) Nat Nat)
    (read : (Graph.ofExpr counted).cells[index]? = some shape) :
    shape = .constant (Integer.ofBits .signed 0) none ∨ shape = .parameter 0 ∨ shape = .binary .mul 0 1 ⟨1, 2⟩ ∨
      shape = .call ticking [] ⟨4, 8⟩ ∨ shape = .binary .add 2 3 ⟨3, 4⟩ := by
  have size : (Graph.ofExpr counted).cells.size = 5 := rfl
  have bound := Cells.read_bound _ index shape read
  have places : index = 0 ∨ index = 1 ∨ index = 2 ∨ index = 3 ∨ index = 4 := by omega
  rcases places with rfl | rfl | rfl | rfl | rfl
  · exact .inl (Option.some.inj read).symm
  · exact .inr (.inl (Option.some.inj read).symm)
  · exact .inr (.inr (.inl (Option.some.inj read).symm))
  · exact .inr (.inr (.inr (.inl (Option.some.inj read).symm)))
  · exact .inr (.inr (.inr (.inr (Option.some.inj read).symm)))

theorem counted_pure : (Graph.ofExpr counted).PureEarly := by
  rintro borrowed ⟨index, shape, read, used⟩ early
  rcases counted_reads index shape read with rfl | rfl | rfl | rfl | rfl
  case inr.inr.inr.inl =>
    obtain rfl := Option.some.inj used
    exact absurd early (by decide)
  all_goals exact absurd used (by simp [Shape.borrowed?])

theorem counted_spares : (Graph.ofExpr counted).SparesCalls 0 := by
  have table : (Pass.carryAll (Graph.ofExpr counted).cells 0).1.cells =
      #[.constant (Integer.ofBits .signed 0) none, .parameter 0, .call ticking [] ⟨4, 8⟩] := by with_unfolding_all rfl
  have places : (Pass.carryAll (Graph.ofExpr counted).cells 0).1.places = #[0, 1, 0, 2, 2] := by with_unfolding_all rfl
  have place (index : Nat) : (Pass.carryAll (Graph.ofExpr counted).cells 0).1.placeOf index =
      #[0, 1, 0, 2, 2].getD index 0 := by rw [Pass.placeOf, places]
  have sound := Pass.carry_all_sound (Graph.ofExpr counted).cells 0 (Graph.of_expr_earlier counted)
  rintro operand apply constant ⟨index, shape, read, fires⟩ ⟨below, member, entry, borrowed, found, used, impure⟩
  have isChild := Rewrite.simplifies_operand _ _ operand apply constant _ fires
  obtain ⟨op, left, right, span, moved, annihilates, -⟩ := Rewrite.simplifies_annihilated _ _ _ _ _ fires
  rcases counted_reads index shape read with rfl | rfl | rfl | rfl | rfl
  case inr.inr.inl =>
    -- The two places below the product hold a constant and a parameter.
    have low : operand ≤ 1 := by
      simp only [Shape.map, Shape.children, place, List.mem_cons, List.not_mem_nil, or_false] at isChild
      rcases isChild with rfl | rfl <;> decide
    have within := Cells.order_bound _ sound.earlier operand below
      (by rw [table]; exact Nat.lt_of_le_of_lt low (by decide)) member
    rw [table] at found
    rcases Nat.le_one_iff_eq_zero_or_eq_one.mp (Nat.le_trans within low) with rfl | rfl
    · obtain rfl := Option.some.inj found
      exact absurd used (by simp [Shape.borrowed?])
    · obtain rfl := Option.some.inj found
      exact absurd used (by simp [Shape.borrowed?])
  case inr.inr.inr.inr =>
    obtain ⟨rfl, -⟩ := Shape.binary.inj moved
    exact absurd annihilates (by simp)
  all_goals exact absurd isChild (by simp [Shape.map, Shape.children])

theorem counted_calls_kept :
    ∃ evaluator raw optimized, clock.build = .ok evaluator ∧
      ((evaluator.compileWith "0*x+tick()" ["x"] false).run 0).1 = .ok raw ∧
      ((evaluator.compileWith "0*x+tick()" ["x"] true).run 0).1 = .ok optimized ∧
      (raw.call [Integer.ofBits .signed 5]).outcome 7 = .ok (Integer.ofBits .signed 7) ∧
      (optimized.call [Integer.ofBits .signed 5]).outcome 7 = .ok (Integer.ofBits .signed 7) ∧
      optimized.graph.invocations [Integer.ofBits .signed 5] 7 = [(ticking, [])] := by
  obtain ⟨evaluator, built, parameters, bound, found⟩ : ∃ evaluator, clock.build = .ok evaluator ∧
      ∃ parameters, evaluator.grammar.bindParameters ["x"] = .ok parameters ∧
        evaluator.tree parameters "0*x+tick()" = .ok counted := ⟨_, rfl, _, rfl, by with_unfolding_all rfl⟩
  have plain := (compile_ok evaluator "0*x+tick()" ["x"] false 0 _).mpr ⟨parameters, counted, bound, found, rfl⟩
  have shortened := (compile_ok evaluator "0*x+tick()" ["x"] true 0 _).mpr ⟨parameters, counted, bound, found, rfl⟩
  have called : (((finish "0*x+tick()" ["x"] false counted).run 0).1.call [Integer.ofBits .signed 5]).outcome 7 =
      .ok (Integer.ofBits .signed 7) := by with_unfolding_all rfl
  obtain ⟨same, calls, -⟩ := optimized_calls_kept clock evaluator built _ _ 0 _ _ plain shortened counted_pure
    (Graph.exact_identities _ 0) counted_spares 7 _ _ called
  exact ⟨evaluator, _, _, built, plain, shortened, called, same, calls.trans (by with_unfolding_all rfl)⟩

-- At this state of the host the text gives the value, with the first calls as it stands and the others optimized.
def Invokes (settings : Settings T σ) (expression : String) (names : List String) (host : σ) (inputs : List T)
    (value : T) (calls others : Log T σ) : Prop :=
  ∃ evaluator raw optimized, settings.build = .ok evaluator ∧
    ((evaluator.compileWith expression names false).run host).1 = .ok raw ∧
    ((evaluator.compileWith expression names true).run host).1 = .ok optimized ∧
    (raw.call inputs).outcome host = .ok value ∧ raw.graph.invocations inputs host = calls ∧
    optimized.graph.invocations inputs host = others

theorem tree_invokes (settings : Settings T σ) (evaluator : Evaluator T σ) (built : settings.build = .ok evaluator)
    (expression : String) (names : List String) (parameters : Parameters)
    (bound : evaluator.grammar.bindParameters names = .ok parameters) (e : Expr T σ)
    (found : evaluator.tree parameters expression = .ok e) (host : σ) (inputs : List T)
    (declared : inputs.length = names.length) (value : T)
    (given : ((Graph.ofExpr e).run inputs).outcome host = .ok value) (calls others : Log T σ)
    (made : (Graph.ofExpr e).invocations inputs host = calls)
    (left : ((Graph.ofExpr e).optimized host).1.invocations inputs host = others) :
    Invokes settings expression names host inputs value calls others := by
  refine ⟨evaluator, _, _, built, (compile_ok evaluator expression names false host _).mpr ⟨parameters, e, bound, found, rfl⟩,
    (compile_ok evaluator expression names true host _).mpr ⟨parameters, e, bound, found, rfl⟩, ?_, made, left⟩
  exact (Compiled.call_ok _ inputs host value).mpr ⟨declared, given⟩

-- `0*tick()`
def wasted : Expr (Integer .signed) Nat :=
  .node (.binary .mul (.node (.constant (Integer.ofBits .signed 0) none)) (.node (.call ticking [] ⟨2, 6⟩)) ⟨1, 2⟩)

theorem wasted_invokes :
    Invokes clock "0*tick()" [] 0 [] (Integer.ofBits .signed 0) [(ticking, [])] [] := by
  obtain ⟨evaluator, built, parameters, bound, found⟩ : ∃ evaluator, clock.build = .ok evaluator ∧
      ∃ parameters, evaluator.grammar.bindParameters [] = .ok parameters ∧
        evaluator.tree parameters "0*tick()" = .ok wasted := ⟨_, rfl, _, rfl, by with_unfolding_all rfl⟩
  exact tree_invokes clock evaluator built _ [] parameters bound wasted found 0 [] rfl _ (by with_unfolding_all rfl) _ _
    (by with_unfolding_all rfl) (by with_unfolding_all rfl)

def beating : Routine Float Nat :=
  ⟨.impureFunction, "tick", 0, fun _ count => (.ok (Float.ofNat count), count + 1), 0⟩

def metronome : Settings Float Nat :=
  ⟨Decimal.flags, [⟨"host", none, [("tick", .routine .impureFunction 0 beating.body)]⟩], [], false, true, none⟩

-- `if(x*0, 1, tick())`
def guarded : Expr Float Nat :=
  .node (.conditional (.node (.binary .mul (.node (.parameter 0)) (.node (.constant 0 none)) ⟨4, 5⟩))
    (.node (.constant 1 none)) (.node (.call beating [] ⟨11, 15⟩)))

-- The product is no number at infinity, which counts as true, and zero once it is optimized.
theorem guarded_invokes :
    Invokes metronome "if(x*0, 1, tick())" ["x"] 0 [Binary64.infinity] 1 [] [(beating, [])] := by
  obtain ⟨evaluator, built, parameters, bound, found⟩ : ∃ evaluator, metronome.build = .ok evaluator ∧
      ∃ parameters, evaluator.grammar.bindParameters ["x"] = .ok parameters ∧
        evaluator.tree parameters "if(x*0, 1, tick())" = .ok guarded :=
    ⟨_, by with_unfolding_all rfl, _, by with_unfolding_all rfl, by with_unfolding_all rfl⟩
  have shortened : ((Graph.ofExpr guarded).optimized 0).1 = ⟨#[.call beating [] ⟨11, 15⟩]⟩ := by with_unfolding_all rfl
  refine tree_invokes metronome evaluator built _ ["x"] parameters bound guarded found 0 _ rfl _
    (by with_unfolding_all rfl) _ _ (by with_unfolding_all rfl) ?_
  rw [shortened]
  with_unfolding_all rfl

-- A zero takes the call beside it away, and an identity that does not hold of a type lets a branch run that did not.
theorem identities_change_calls :
    Invokes clock "0*tick()" [] 0 [] (Integer.ofBits .signed 0) [(ticking, [])] [] ∧
      Invokes metronome "if(x*0, 1, tick())" ["x"] 0 [Binary64.infinity] 1 [] [(beating, [])] :=
  ⟨wasted_invokes, guarded_invokes⟩

end Evaluator

end Formula
