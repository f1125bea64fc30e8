import Formula.Proofs.Phrase.Ending
import Formula.Proofs.Phrase.Leaving
import Formula.Proofs.Phrase.Source

/-!
The order of operations loses no token and makes none up. At every place of a text, what has left
and what is still owed are together the operands, operators and functions of the text, each once,
whether or not the text is a sentence.
-/

set_option autoImplicit false

namespace Formula.Phrase

variable {T σ : Type}

-- What the open parts still owe: their operators, and the functions with the arguments that the rest of the text adds.
def owedBy (blank : Bool) (depth : Nat) (text : List (Token T σ)) : List (Slot T σ) → List (Token T σ)
  | [] => []
  | .group _ :: rest => owedBy false (depth + 1) text rest
  | .call name _ done :: rest =>
      Reading.counted name
          (if blank && done.isNone && closesNow text then 0 else separators done + commas depth text + 1) ::
        owedBy false (depth + 1) text rest
  | .before operator :: rest => operator.lone :: owedBy false depth text rest
  | .between _ operator :: rest => operator :: owedBy false depth text rest

def Reading.owed (reading : Reading T σ) (text : List (Token T σ)) : List (Token T σ) :=
  (reading.pending.map fun name => Reading.counted name (argumentsIn text.tail)).toList ++
    owedBy (reading.current.isNone && reading.pending.isNone) 0 text reading.slots

theorem owed_waiting (blank : Bool) (depth : Nat) (text : List (Token T σ)) (slots : List (Slot T σ))
    (waits : ∀ slot ∈ slots, slot.waiting?.isSome = true) : owedBy blank depth text slots = Reading.stackOf slots := by
  induction slots generalizing blank with
  | nil => rfl
  | cons slot rest ih =>
      rw [List.forall_mem_cons] at waits
      cases slot with
      | group _ => simp [Slot.waiting?] at waits
      | call _ _ _ => simp [Slot.waiting?] at waits
      | before operator => exact congrArg _ (ih false waits.2)
      | between left operator => exact congrArg _ (ih false waits.2)

theorem owed_append (depth : Nat) (text : List (Token T σ)) (operators slots : List (Slot T σ))
    (waits : ∀ slot ∈ operators, slot.waiting?.isSome = true) :
    owedBy false depth text (operators ++ slots) = Reading.stackOf operators ++ owedBy false depth text slots := by
  induction operators with
  | nil => rfl
  | cons slot rest ih =>
      rw [List.forall_mem_cons] at waits
      cases slot with
      | group _ => simp [Slot.waiting?] at waits
      | call _ _ _ => simp [Slot.waiting?] at waits
      | before operator => exact congrArg _ (ih waits.2)
      | between left operator => exact congrArg _ (ih waits.2)

theorem owed_settled (depth : Nat) (text : List (Token T σ)) (free : Token T σ → Bool) (reading : Reading T σ) :
    owedBy false depth text reading.slots =
      Reading.stackOf (reading.freed free) ++ owedBy false depth text (reading.kept free) := by
  rw [← owed_append depth text _ _ (freed_all_wait free reading), reading.freed_kept]

theorem owed_moves (blank : Bool) (depth next : Nat) (text rest : List (Token T σ)) (slots : List (Slot T σ))
    (counts : ∀ more, commas (depth + more) text = commas (next + more) rest)
    (stays : blank = false ∨ closesNow text = false) :
    owedBy blank depth text slots = owedBy false next rest slots := by
  induction slots generalizing blank depth next with
  | nil => rfl
  | cons slot below ih =>
      have here := counts 0
      have deeper : ∀ more, commas (depth + 1 + more) text = commas (next + 1 + more) rest := by
        intro more
        rw [Nat.add_assoc, Nat.add_assoc]
        exact counts (1 + more)
      cases slot with
      | group _ => exact ih false (depth + 1) (next + 1) deeper (.inl rfl)
      | call name _ done =>
          have open_ : (blank && done.isNone && closesNow text) = false := by rcases stays with h | h <;> simp [h]
          rw [owedBy, owedBy, open_, ih false (depth + 1) (next + 1) deeper (.inl rfl)]
          exact congrArg (fun count => Reading.counted name (separators done + count + 1) :: _) here
      | before operator => exact congrArg _ (ih false depth next counts (.inl rfl))
      | between left operator => exact congrArg _ (ih false depth next counts (.inl rfl))

theorem owed_past (blank : Bool) (depth : Nat) (token : Token T σ) (rest : List (Token T σ)) (slots : List (Slot T σ))
    (piece : token.role.isPunctuation = false) :
    owedBy blank depth (token :: rest) slots = owedBy false depth rest slots := by
  apply owed_moves _ _ _ _ _ _ (fun more => commas_past _ token rest piece)
  right
  cases role : token.role <;> simp_all [closesNow, Role.isPunctuation]

theorem owed_opened (blank : Bool) (depth : Nat) (token : Token T σ) (rest : List (Token T σ)) (slots : List (Slot T σ))
    (opening : token.role = .openParen) :
    owedBy blank depth (token :: rest) slots = owedBy false (depth + 1) rest slots := by
  apply owed_moves
  · intro more
    simp [commas, opening, Nat.add_right_comm]
  · exact .inr (by simp [closesNow, opening])

theorem owed_separated (depth : Nat) (token : Token T σ) (rest : List (Token T σ)) (slots : List (Slot T σ))
    (separator : token.role = .separator) :
    owedBy false (depth + 1) (token :: rest) slots = owedBy false (depth + 1) rest slots := by
  apply owed_moves _ _ _ _ _ _ _ (.inl rfl)
  intro more
  simp [commas, separator, Nat.add_right_comm]

theorem owed_closed (depth : Nat) (token : Token T σ) (rest : List (Token T σ)) (slots : List (Slot T σ))
    (closing : token.role = .closeParen) :
    owedBy false (depth + 1) (token :: rest) slots = owedBy false depth rest slots := by
  apply owed_moves _ _ _ _ _ _ _ (.inl rfl)
  intro more
  simp [commas, closing, Nat.add_right_comm]

theorem owed_idle (reading : Reading T σ) (idle : reading.pending = none) (text : List (Token T σ)) :
    reading.owed text = owedBy reading.current.isNone 0 text reading.slots := by
  simp [Reading.owed, idle]

def Reading.due (reading : Reading T σ) (text : List (Token T σ)) : List (Token T σ) :=
  reading.owed text ++ leaving text

theorem advance_operator_due (reading next : Reading T σ) (token : Token T σ) (out rest : List (Token T σ))
    (idle : reading.pending = none) (operator : token.role.isOperator = true)
    (taken : reading.advanceOperator token = some (out, next)) :
    (reading.due (token.asRead reading.current.isSome :: rest)).Perm (out ++ next.due rest) := by
  unfold Reading.advanceOperator at taken
  cases present : reading.current with
  | none =>
      simp only [present, Option.ite_none_right_eq_some, Option.some.injEq, Prod.mk.injEq] at taken
      obtain ⟨alone, rfl, rfl⟩ := taken
      have read : token.asRead false = token.lone := by simp [Token.asRead, operator]
      have lone : token.lone.role.isOperator = true := Form.prefix_operator _ alone
      have before : reading.due (token.lone :: rest) =
          owedBy false 0 rest reading.slots ++ token.lone :: leaving rest := by
        rw [Reading.due, owed_idle reading idle, leaving_kept token.lone rest (.inr lone),
          owed_past _ _ _ _ _ (operator_piece token.lone lone)]
      have after : Reading.due ⟨.before token :: reading.slots, none, reading.pending, reading.lost⟩ rest =
          token.lone :: (owedBy false 0 rest reading.slots ++ leaving rest) := by
        simp [Reading.due, owed_idle, idle, owedBy]
      rw [Option.isSome_none, read, before, List.nil_append, after]
      exact List.perm_middle
  | some p =>
      simp only [present, Option.ite_none_left_eq_some, Option.some.injEq, Prod.mk.injEq] at taken
      obtain ⟨-, rfl, rfl⟩ := taken
      have read : token.asRead true = token := by simp [Token.asRead]
      have before : reading.due (token :: rest) = Reading.stackOf (reading.freed (Order.releases token)) ++
          (owedBy false 0 rest (reading.kept (Order.releases token)) ++ token :: leaving rest) := by
        rw [Reading.due, owed_idle reading idle, leaving_kept token rest (.inr operator),
          owed_past _ _ _ _ _ (operator_piece token operator), owed_settled 0 rest (Order.releases token) reading,
          List.append_assoc]
      rw [Option.isSome_some, read, before]
      apply List.Perm.append_left
      simp only [Reading.due, Reading.owed, idle, Option.map_none, Option.toList_none, List.nil_append, owedBy,
        List.cons_append]
      exact List.perm_middle

theorem advance_separator_due (reading next : Reading T σ) (token : Token T σ) (out rest : List (Token T σ))
    (idle : reading.pending = none) (separator : token.role = .separator)
    (taken : reading.advanceSeparator token = some (out, next)) :
    reading.due (token :: rest) = out ++ next.due rest := by
  unfold Reading.advanceSeparator at taken
  split at taken
  · rename_i p name opening done below present kept
    simp only [Option.some.injEq, Prod.mk.injEq] at taken
    obtain ⟨rfl, rfl⟩ := taken
    have counts : commas 0 (token :: rest) = commas 0 rest + 1 := by simp [commas, separator]
    have grown := argument_count done (plugAll (reading.freed Reading.notOpen) p)
    rw [Reading.due, owed_idle reading idle, present, Option.isNone_some,
      owed_settled 0 (token :: rest) Reading.notOpen reading, kept, owedBy, owed_separated 0 token rest below separator,
      leaving_dropped token rest (by rw [separator]; rfl), counts]
    simp [Reading.due, Reading.owed, idle, owedBy, separators, grown, Nat.add_assoc, Nat.add_comm 1]
  · exact absurd taken (by simp)

theorem advance_close_due (reading next : Reading T σ) (token : Token T σ) (out rest : List (Token T σ))
    (idle : reading.pending = none) (closing : token.role = .closeParen)
    (taken : reading.advanceClose token = some (out, next)) :
    reading.due (token :: rest) = out ++ next.due rest := by
  have dropped : leaving (token :: rest) = leaving rest := leaving_dropped token rest (by rw [closing]; rfl)
  have counts : commas 0 (token :: rest) = 0 := by simp [commas, closing]
  unfold Reading.advanceClose at taken
  split at taken
  · rename_i p name opening done below present kept
    simp only [Option.some.injEq, Prod.mk.injEq] at taken
    obtain ⟨rfl, rfl⟩ := taken
    have grown := argument_count done (plugAll (reading.freed Reading.notOpen) p)
    rw [Reading.due, owed_idle reading idle, present, Option.isNone_some,
      owed_settled 0 (token :: rest) Reading.notOpen reading, kept, owedBy, owed_closed 0 token rest below closing,
      dropped, counts]
    simp [Reading.due, Reading.owed, idle, grown]
  · rename_i p opening below present kept
    simp only [Option.some.injEq, Prod.mk.injEq] at taken
    obtain ⟨rfl, rfl⟩ := taken
    rw [Reading.due, owed_idle reading idle, present, Option.isNone_some,
      owed_settled 0 (token :: rest) Reading.notOpen reading, kept, owedBy, owed_closed 0 token rest below closing,
      dropped]
    simp [Reading.due, Reading.owed, idle]
  · rename_i name opening below absent kept
    simp only [Option.ite_none_right_eq_some, Option.some.injEq, Prod.mk.injEq] at taken
    obtain ⟨blank, rfl, rfl⟩ := taken
    have slots := reading.freed_kept Reading.notOpen
    rw [blank, kept, List.nil_append] at slots
    rw [Reading.due, owed_idle reading idle, absent, Option.isNone_none, ← slots, owedBy,
      owed_closed 0 token rest below closing, dropped]
    simp [Reading.due, Reading.owed, idle, closesNow, closing]
  · exact absurd taken (by simp)

theorem advance_due (reading next : Reading T σ) (token : Token T σ) (out rest : List (Token T σ))
    (paused : reading.Paused) (taken : reading.advance token = some (out, next)) :
    (reading.due (token.asRead reading.current.isSome :: rest)).Perm (out ++ next.due rest) := by
  have plain (role : token.role.isOperator = false) : token.asRead reading.current.isSome = token := by
    simp [Token.asRead, role]
  unfold Reading.advance at taken
  split at taken
  case h_1 name pending opening =>
    simp only [Option.some.injEq, Prod.mk.injEq] at taken
    obtain ⟨rfl, rfl⟩ := taken
    have absent := paused name pending
    have same : reading.due (token :: rest) =
        Reading.due ⟨.call name token none :: reading.slots, reading.current, none, reading.lost⟩ rest := by
      rw [Reading.due, leaving_dropped token rest (by rw [opening]; rfl)]
      simp [Reading.due, Reading.owed, pending, absent, owedBy, separators, owed_opened _ _ token rest _ opening,
        argumentsIn]
      rfl
    rw [plain (by rw [opening]; rfl), same, List.nil_append]
  case h_2 => exact absurd taken (by simp)
  case h_3 idle operand =>
    simp only [Option.some.injEq, Prod.mk.injEq] at taken
    obtain ⟨rfl, rfl⟩ := taken
    rw [plain (by rw [operand]; rfl), Reading.due, leaving_kept token rest (.inl operand), owed_idle reading idle,
      owed_past _ _ token rest _ (by rw [operand]; rfl)]
    simp [Reading.due, Reading.owed, Reading.drop, idle]
  case h_4 idle function =>
    simp only [Option.some.injEq, Prod.mk.injEq] at taken
    obtain ⟨rfl, rfl⟩ := taken
    rw [plain (by rw [function]; rfl), Reading.due, owed_idle reading idle,
      owed_past _ _ token rest _ (by rw [function]; rfl)]
    simp [Reading.due, Reading.owed, Reading.drop, leaving, function]
  case h_5 idle opening =>
    simp only [Option.some.injEq, Prod.mk.injEq] at taken
    obtain ⟨rfl, rfl⟩ := taken
    rw [plain (by rw [opening]; rfl), Reading.due, leaving_dropped token rest (by rw [opening]; rfl),
      owed_idle reading idle, owed_opened _ _ token rest _ opening]
    simp [Reading.due, Reading.owed, Reading.drop, idle, owedBy]
  case h_6 idle role =>
    exact advance_operator_due reading next token out rest idle (by rw [role]; rfl) taken
  case h_7 idle role =>
    exact advance_operator_due reading next token out rest idle (by rw [role]; rfl) taken
  case h_8 idle role =>
    rw [plain (by rw [role]; rfl), advance_separator_due reading next token out rest idle role taken]
  case h_9 idle role =>
    rw [plain (by rw [role]; rfl), advance_close_due reading next token out rest idle role taken]

theorem stack_no_operand (slots : List (Slot T σ)) (formed : ∀ slot ∈ slots, slot.Formed) :
    (Reading.stackOf slots).filter Token.isOperand = [] := by
  simp only [List.filter_eq_nil_iff, Reading.stackOf, List.mem_flatMap, Token.isOperand, decide_eq_true_eq]
  rintro token ⟨slot, member, held⟩ operand
  have slotFormed := formed slot member
  cases slot with
  | group opening =>
      obtain rfl := List.mem_singleton.mp held
      exact absurd (operand.symm.trans slotFormed) (by simp)
  | call name opening done =>
      obtain ⟨nameRole, openRole⟩ := call_formed name opening done slotFormed
      simp only [Slot.stack, List.mem_cons, List.not_mem_nil, or_false] at held
      rcases held with rfl | rfl
      · exact absurd (operand.symm.trans openRole) (by simp)
      · exact absurd (operand.symm.trans nameRole) (by simp)
  | before operator =>
      obtain rfl := List.mem_singleton.mp held
      exact absurd (waiting_operator _ slotFormed operator.lone rfl) (by simp [operand, Role.isOperator])
  | between left operator =>
      obtain rfl := List.mem_singleton.mp held
      exact absurd (waiting_operator _ slotFormed token rfl) (by simp [operand, Role.isOperator])

theorem freed_no_operand (free : Token T σ → Bool) (reading : Reading T σ) (formed : reading.Formed) :
    (Reading.stackOf (reading.freed free)).filter Token.isOperand = [] :=
  stack_no_operand _ fun slot member => formed.slots slot ((List.takeWhile_sublist _).subset member)

theorem counted_no_operand (name : Token T σ) (count : Nat) (role : name.role = .function) :
    (Reading.counted name count).isOperand = false := by
  have same : (Reading.counted name count).role = .function := role
  simp [Token.isOperand, same]

theorem advance_operands (reading next : Reading T σ) (token : Token T σ) (out : List (Token T σ))
    (formed : reading.Formed) (taken : reading.advance token = some (out, next)) :
    out.filter Token.isOperand = [token].filter Token.isOperand := by
  have other (role : token.role ≠ .operand) : [token].filter Token.isOperand = [] := by simp [Token.isOperand, role]
  have freed (free : Token T σ → Bool) := freed_no_operand free reading formed
  have named (name opening : Token T σ) (done : Option (Arguments T σ × Token T σ)) (below : List (Slot T σ))
      (kept : reading.kept Reading.notOpen = .call name opening done :: below) (count : Nat) :
      (Reading.counted name count).isOperand = false := by
    have member : .call name opening done ∈ reading.slots :=
      (List.dropWhile_sublist (Slot.freed Reading.notOpen)).subset (by rw [← Reading.kept, kept]; simp)
    exact counted_no_operand name count (call_formed name opening done (formed.slots _ member)).1
  have operator (taken : reading.advanceOperator token = some (out, next)) : out.filter Token.isOperand = [] := by
    unfold Reading.advanceOperator at taken
    split at taken <;> split at taken <;> simp only [Option.some.injEq, Prod.mk.injEq, reduceCtorEq] at taken
    · rw [← taken.1, List.filter_nil]
    · rw [← taken.1, freed]
  unfold Reading.advance at taken
  split at taken
  case h_1 name pending opening =>
    simp only [Option.some.injEq, Prod.mk.injEq] at taken
    rw [← taken.1, other (by simp [opening]), List.filter_nil]
  case h_2 => exact absurd taken (by simp)
  case h_3 =>
    simp only [Option.some.injEq, Prod.mk.injEq] at taken
    rw [← taken.1]
  case h_4 idle role =>
    simp only [Option.some.injEq, Prod.mk.injEq] at taken
    rw [← taken.1, other (by simp [role]), List.filter_nil]
  case h_5 idle role =>
    simp only [Option.some.injEq, Prod.mk.injEq] at taken
    rw [← taken.1, other (by simp [role]), List.filter_nil]
  case h_6 idle role => rw [operator taken, other (by simp [role])]
  case h_7 idle role => rw [operator taken, other (by simp [role])]
  case h_8 idle role =>
    rw [other (by simp [role])]
    unfold Reading.advanceSeparator at taken
    split at taken <;> simp only [Option.some.injEq, Prod.mk.injEq, reduceCtorEq] at taken
    rw [← taken.1, freed]
  case h_9 idle role =>
    rw [other (by simp [role])]
    unfold Reading.advanceClose at taken
    split at taken
    · rename_i p name opening done below present kept
      simp only [Option.some.injEq, Prod.mk.injEq] at taken
      rw [← taken.1, List.filter_append, freed, List.nil_append]
      simp [named name opening done below kept]
    · simp only [Option.some.injEq, Prod.mk.injEq] at taken
      rw [← taken.1, freed]
    · rename_i name opening below absent kept
      simp only [Option.ite_none_right_eq_some, Option.some.injEq, Prod.mk.injEq] at taken
      rw [← taken.2.1]
      simp [named name opening none below kept]
    · exact absurd taken (by simp)

theorem finish_due (expression : String) (reading : Reading T σ) (formed : reading.Formed) (out : List (Token T σ))
    (finished : Order.finish expression reading.order = .ok out) :
    reading.due [] = out ∧ out.filter Token.isOperand = [] := by
  obtain ⟨idle, kept, ended, rfl⟩ := (finish_order expression reading formed out).mp finished
  have whole := reading.freed_kept Reading.notOpen
  rw [kept, List.append_nil] at whole
  refine ⟨?_, stack_no_operand reading.slots formed.slots⟩
  rw [Reading.due, owed_idle reading idle, leaving, List.append_nil, ← whole]
  exact owed_waiting _ 0 [] _ (freed_all_wait Reading.notOpen reading)

theorem ok_injective : Function.Injective (Except.ok : Token T σ → Except ParseError (Token T σ)) :=
  fun _ _ same => Except.ok.inj same

theorem order_due (expression : String) (tokens : List (Token T σ)) (reading : Reading T σ) (fits : reading.Fits)
    (proper : ∀ token ∈ tokens, Proper token) (emitted : List (Token T σ))
    (clean : Order.orderFrom expression reading.order (tokens.map .ok) = emitted.map .ok) :
    (reading.due (asRead reading.current.isSome tokens)).Perm emitted ∧
      emitted.filter Token.isOperand = tokens.filter Token.isOperand := by
  induction tokens generalizing reading emitted with
  | nil =>
      rw [List.map_nil, Order.orderFrom] at clean
      cases finished : Order.finish expression reading.order with
      | error error => cases emitted <;> simp [finished] at clean
      | ok out =>
          rw [finished] at clean
          obtain rfl := ok_injective.list_map clean
          obtain ⟨due, operands⟩ := finish_due expression reading fits.formed out finished
          exact ⟨due ▸ .rfl, operands⟩
  | cons token rest ih =>
      obtain ⟨first, restProper⟩ := List.forall_mem_cons.mp proper
      have spared := fits_spared reading fits token first
      have agrees := accept_order expression reading token fits.formed first.alone spared
      rw [List.map_cons, Order.orderFrom] at clean
      cases taken : reading.advance token with
      | none =>
          rw [taken] at agrees
          obtain ⟨error, refused⟩ := agrees
          cases emitted <;> simp [refused] at clean
      | some step =>
          obtain ⟨out, next⟩ := step
          rw [taken] at agrees
          have accepted : Order.accept expression reading.order token = .ok (out, next.order) := agrees
          simp only [accepted] at clean
          obtain ⟨now, later, rfl, released, onward⟩ := List.map_eq_append_iff.mp clean.symm
          obtain rfl := ok_injective.list_map released
          have nextFits := advance_fits reading next token now fits first taken
          obtain ⟨due, operands⟩ := ih next nextFits restProper later onward.symm
          rw [advance_completes reading next token now fits.formed.paused taken] at due
          constructor
          · exact (advance_due reading next token now _ fits.formed.paused taken).trans (due.append_left now)
          · rw [List.filter_append, operands, advance_operands reading next token now fits.formed taken,
              ← List.filter_append, List.singleton_append]

theorem start_due (text : List (Token T σ)) : Reading.start.due text = leaving text := rfl

-- The order of operations ends, after an error at once. Without one it lets out the operands, operators and functions
-- of the text, each once and in the form in which it was read, and the operands in the order of the text.
theorem order_keeps_tokens [Numeric T] (settings : Settings T σ) (evaluator : Evaluator T σ)
    (built : settings.build = .ok evaluator) (expression : String) (items : List (Except ParseError (Token T σ)))
    (carried : ∀ token, .ok token ∈ items → Carries evaluator.grammar token) :
    (Postfix.order expression items).length ≤ items.length + 1 ∧
    ∃ emitted : List (Token T σ),
      (∃ error, Postfix.order expression items = emitted.map .ok ++ [.error error]) ∨
      Postfix.order expression items = emitted.map .ok ∧
        ∃ tokens, items = tokens.map .ok ∧ emitted.Perm (leaving (asRead false tokens)) ∧
          (∀ token ∈ emitted, token.role.isPunctuation = false) ∧
          emitted.filter Token.isOperand = tokens.filter Token.isOperand := by
  obtain ⟨bound, emitted, shape⟩ := order_ends expression items (Order.start : Order T σ)
  refine ⟨by simpa [Postfix.order, Order.start] using bound, emitted, ?_⟩
  rcases shape with clean | broken
  · have unbroken : ∀ error, .error error ∉ Order.orderFrom expression Order.start items := by simp [clean]
    obtain ⟨tokens, rfl⟩ := all_tokens items (order_no_error expression items _ unbroken)
    have proper : ∀ token ∈ tokens, Proper token := fun token member =>
      carried_proper settings evaluator built token (carried token (List.mem_map_of_mem member))
    obtain ⟨due, operands⟩ := order_due expression tokens .start start_fits proper emitted clean
    rw [start_due] at due
    refine .inr ⟨clean, tokens, rfl, due.symm, fun token member => ?_, operands⟩
    exact leaving_pieces _ token (due.mem_iff.mpr member)
  · exact .inl broken

def number (value : Rat) (span : Span) : Token Rat Unit := .ofTemplate (.operand "number" (.literal value)) span

-- The tokens of `if(1 2,-3)`: no sentence, for nothing stands between two of the numbers.
def crowded : List (Token Rat Unit) :=
  [.ofTemplate (.function "if" .conditional) ⟨0, 2⟩, .ofTemplate (.punctuation "(" .openParen) ⟨2, 3⟩,
    number 1 ⟨3, 4⟩, number 2 ⟨5, 6⟩, .ofTemplate (.punctuation "," .separator) ⟨6, 7⟩,
    .ofTemplate minusTemplate ⟨7, 8⟩, number 3 ⟨8, 9⟩, .ofTemplate (.punctuation ")" .closeParen) ⟨9, 10⟩]

-- Its function has two arguments, and its sign stands before its operand.
def uncrowded : List (Token Rat Unit) :=
  [number 1 ⟨3, 4⟩, number 2 ⟨5, 6⟩, number 3 ⟨8, 9⟩,
    (Token.ofTemplate minusTemplate ⟨7, 8⟩).lone,
    Reading.counted (.ofTemplate (.function "if" .conditional) ⟨0, 2⟩) 2]

theorem crowded_kept :
    ∃ evaluator, (Settings.ofFlags ⟨true, true, false, true⟩ : Settings Rat Unit).build = .ok evaluator ∧
      (∀ token, .ok token ∈ (crowded.map .ok : List (Except ParseError (Token Rat Unit))) →
        Carries evaluator.grammar token) ∧
      Postfix.order "if(1 2,-3)" (crowded.map .ok) = uncrowded.map .ok ∧
      uncrowded.Perm (leaving (asRead false crowded)) := by
  obtain ⟨evaluator, built, opening, closing, comma, minus, choice⟩ :
      ∃ evaluator, (Settings.ofFlags ⟨true, true, false, true⟩ : Settings Rat Unit).build = .ok evaluator ∧
        ⟨['('], .punctuation "(" .openParen⟩ ∈ evaluator.grammar.operators ∧
        ⟨[')'], .punctuation ")" .closeParen⟩ ∈ evaluator.grammar.operators ∧
        ⟨[','], .punctuation "," .separator⟩ ∈ evaluator.grammar.operators ∧
        ⟨['-'], minusTemplate⟩ ∈ evaluator.grammar.operators ∧
        ⟨['i'], .function "if" .conditional⟩ ∈ evaluator.grammar.identifiers :=
    ⟨_, rfl, List.mem_of_getElem? (i := 0) rfl, List.mem_of_getElem? (i := 1) rfl, List.mem_of_getElem? (i := 2) rfl,
      List.mem_of_getElem? (i := 4) rfl, List.mem_of_getElem? (i := 0) rfl⟩
  have carried : ∀ token, .ok token ∈ (crowded.map .ok : List (Except ParseError (Token Rat Unit))) →
      Carries evaluator.grammar token := by
    intro token member
    simp only [crowded, List.map_cons, List.map_nil, List.mem_cons, Except.ok.injEq, List.not_mem_nil,
      or_false] at member
    rcases member with rfl | rfl | rfl | rfl | rfl | rfl | rfl | rfl
    · exact .identifier _ choice _
    · exact .operator _ opening _
    · exact .literal _ _ _
    · exact .literal _ _ _
    · exact .operator _ comma _
    · exact .operator _ minus _
    · exact .literal _ _ _
    · exact .operator _ closing _
  have left : Postfix.order "if(1 2,-3)" (crowded.map .ok) = uncrowded.map .ok := rfl
  obtain ⟨-, emitted, ⟨error, broken⟩ | ⟨clean, tokens, whole, kept, -⟩⟩ :=
    order_keeps_tokens _ evaluator built "if(1 2,-3)" (crowded.map .ok) carried
  · have last : .error error ∈ (uncrowded.map .ok : List (Except ParseError (Token Rat Unit))) := by
      rw [← left, broken]
      simp
    simp at last
  · obtain rfl := ok_injective.list_map whole
    obtain rfl := ok_injective.list_map (left.symm.trans clean)
    exact ⟨evaluator, built, carried, left, kept⟩

end Formula.Phrase
