import Formula.Proofs.Phrase.Formed

set_option autoImplicit false

namespace Formula.Phrase

variable {T σ : Type}

-- The operators down the right edge, the innermost first, and the phrase where the edge ends.
def edge : Phrase T σ → List (Slot T σ)
  | .operand _ | .group _ _ _ | .emptyCall _ _ _ | .call _ _ _ _ => []
  | .before operator inner => edge inner ++ [.before operator]
  | .between left operator right => edge right ++ [.between left operator]

def tip : Phrase T σ → Phrase T σ
  | .before _ inner => tip inner
  | .between _ _ right => tip right
  | .operand token => .operand token
  | .group opening inner closing => .group opening inner closing
  | .emptyCall name opening closing => .emptyCall name opening closing
  | .call name opening args closing => .call name opening args closing

def lastArgument : Arguments T σ → Phrase T σ
  | .one arg => arg
  | .more _ _ arg => arg

def earlier : Arguments T σ → Option (Arguments T σ × Token T σ)
  | .one _ => none
  | .more args comma _ => some (args, comma)

theorem with_last_argument (args : Arguments T σ) :
    withArgument (earlier args) (lastArgument args) = args := by
  cases args <;> rfl

theorem plug_all_last (slots : List (Slot T σ)) (slot : Slot T σ) (p : Phrase T σ) :
    plugAll (slots ++ [slot]) p = slot.plug (plugAll slots p) := by
  simp [plugAll]

theorem plug_edge (p : Phrase T σ) : plugAll (edge p) (tip p) = p := by
  cases p with
  | operand _ => rfl
  | group _ _ _ => rfl
  | emptyCall _ _ _ => rfl
  | call _ _ _ _ => rfl
  | before operator inner =>
      rw [edge, tip, plug_all_last, plug_edge inner]
      rfl
  | between left operator right =>
      rw [edge, tip, plug_all_last, plug_edge right]
      rfl

theorem edge_fits (p : Phrase T σ) (fits : p.Fits) :
    ∀ slot ∈ edge p, slot.waiting?.isSome = true ∧ slot.Fits ∧ p.rank ≤ slot.rank := by
  intro slot member
  cases p with
  | operand _ => simp [edge] at member
  | group _ _ _ => simp [edge] at member
  | emptyCall _ _ _ => simp [edge] at member
  | call _ _ _ _ => simp [edge] at member
  | before operator inner =>
      rcases List.mem_append.mp member with inside | outside
      · obtain ⟨waits, slotFits, rank⟩ := edge_fits inner fits.2.2 slot inside
        exact ⟨waits, slotFits, Nat.le_trans fits.2.1 rank⟩
      · obtain rfl := List.mem_singleton.mp outside
        exact ⟨rfl, fits.1, Nat.le_refl _⟩
  | between left operator right =>
      obtain ⟨binary, leftEnough, rightEnough, leftFits, rightFits⟩ := fits
      rcases List.mem_append.mp member with inside | outside
      · obtain ⟨waits, slotFits, rank⟩ := edge_fits right rightFits slot inside
        have own : operator.form.precedence ≤ rightNeed operator := by
          unfold rightNeed
          split <;> omega
        exact ⟨waits, slotFits, Nat.le_trans own (Nat.le_trans rightEnough rank)⟩
      · obtain rfl := List.mem_singleton.mp outside
        exact ⟨rfl, ⟨binary, leftEnough, leftFits⟩, Nat.le_refl _⟩

theorem loose_released (token : Token T σ) (slot : Slot T σ) (waits : slot.waiting?.isSome = true)
    (fits : slot.Fits) (enough : leftNeed token ≤ slot.rank) :
    slot.freed (Order.releases token) = true := by
  cases slot with
  | group _ => simp [Slot.waiting?] at waits
  | call _ _ _ => simp [Slot.waiting?] at waits
  | before operator =>
      have level := fits.level
      simp only [Slot.freed, Slot.waiting?, Option.any_some, Order.releases, fits.grouping,
        Role.isOperator, Bool.true_and, level]
      by_cases right : token.role = .rightOperator <;>
        simp [leftNeed, Slot.rank, right] at enough ⊢ <;> omega
  | between left operator =>
      have role : operator.role.isOperator = true := by
        rcases binary_level operator fits.1 with h | h <;> simp [h.1, Role.isOperator]
      simp only [Slot.freed, Slot.waiting?, Option.any_some, Order.releases, role, Bool.true_and]
      by_cases right : token.role = .rightOperator <;>
        simp [leftNeed, Slot.rank, right] at enough ⊢ <;> omega

theorem tight_kept (token : Token T σ) (binary : IsBinary token) (slot : Slot T σ) (fits : slot.Fits)
    (enough : slot.need ≤ token.form.precedence) : slot.freed (Order.releases token) = false := by
  have incoming := binary_level token binary
  cases slot with
  | group _ => rfl
  | call _ _ _ => rfl
  | before operator =>
      have impossible : unaryPrecedence ≤ token.form.precedence := enough
      unfold unaryPrecedence at impossible
      omega
  | between left operator =>
      have waiting := binary_level operator fits.1
      simp only [Slot.need, rightNeed] at enough
      simp only [Slot.freed, Slot.waiting?, Option.any_some, Order.releases]
      rcases incoming with h | h <;> rcases waiting with w | w <;> simp [h.1, w.1] at enough ⊢ <;> omega

theorem operator_not_open (slot : Slot T σ) (waits : slot.waiting?.isSome = true) (formed : slot.Formed) :
    slot.freed Reading.notOpen = true := by
  obtain ⟨token, waiting⟩ := Option.isSome_iff_exists.mp waits
  rw [Slot.freed, waiting, Option.any_some]
  exact operator_not_opening token (waiting_operator slot formed token waiting)

theorem freed_exactly (free : Token T σ → Bool) (operators slots : List (Slot T σ))
    (current : Option (Phrase T σ)) (pending : Option (Token T σ)) (lost : Nat)
    (all : ∀ slot ∈ operators, slot.freed free = true)
    (stop : ∀ slot, slots.head? = some slot → slot.freed free = false) :
    Reading.freed free ⟨operators ++ slots, current, pending, lost⟩ = operators ∧
      Reading.kept free ⟨operators ++ slots, current, pending, lost⟩ = slots := by
  have none : slots.takeWhile (Slot.freed free) = [] ∧ slots.dropWhile (Slot.freed free) = slots := by
    cases slots with
    | nil => exact ⟨rfl, rfl⟩
    | cons slot rest => simp [stop slot rfl]
  exact ⟨by rw [Reading.freed, List.takeWhile_append_of_pos all, none.1, List.append_nil],
    by rw [Reading.kept, List.dropWhile_append_of_pos all, none.2]⟩

theorem bracket_freed (p : Phrase T σ) (fits : p.Fits) (slot : Slot T σ) (slots : List (Slot T σ))
    (bracket : slot.waiting? = none) (current : Option (Phrase T σ)) (lost : Nat) :
    Reading.freed Reading.notOpen ⟨edge p ++ slot :: slots, current, none, lost⟩ = edge p ∧
      Reading.kept Reading.notOpen ⟨edge p ++ slot :: slots, current, none, lost⟩ = slot :: slots := by
  apply freed_exactly
  · intro waiting member
    obtain ⟨waits, slotFits, -⟩ := edge_fits p fits waiting member
    exact operator_not_open waiting waits (slot_fits_formed waiting slotFits)
  · rintro first ⟨⟩
    simp [Slot.freed, bracket]

theorem run_append (reading : Reading T σ) (a b : List (Token T σ)) :
    reading.run (a ++ b) = (reading.run a).bind fun next => next.run b := by
  induction a generalizing reading with
  | nil => rfl
  | cons token rest ih =>
      simp only [List.cons_append, Reading.run, Option.bind_assoc]
      exact congrArg (Option.bind (reading.advance token)) (funext fun next => ih next.2)

theorem advance_of_operator (reading : Reading T σ) (token : Token T σ) (idle : reading.pending = none)
    (operator : token.role.isOperator = true) :
    reading.advance token = reading.advanceOperator token := by
  unfold Reading.advance
  rw [idle]
  cases role : token.role <;> simp_all [Role.isOperator]

theorem advance_between (p : Phrase T σ) (fits : p.Fits) (token : Token T σ) (binary : IsBinary token)
    (binds : token.form.isPrefix = false) (enough : leftNeed token ≤ p.rank) (slots : List (Slot T σ))
    (lost : Nat) (first : ∀ slot, slots.head? = some slot → slot.Fits)
    (needs : needOf slots ≤ token.form.precedence) :
    Reading.advance ⟨edge p ++ slots, some (tip p), none, lost⟩ token =
      some (Reading.stackOf (edge p), ⟨.between p token :: slots, none, none, lost⟩) := by
  have operator : token.role.isOperator = true := by
    rcases binary_level token binary with h | h <;> simp [h.1, Role.isOperator]
  obtain ⟨freed, kept⟩ := freed_exactly (Order.releases token) (edge p) slots (some (tip p)) none lost
    (fun slot member => by
      obtain ⟨waits, slotFits, rank⟩ := edge_fits p fits slot member
      exact loose_released token slot waits slotFits (Nat.le_trans enough rank))
    (fun slot head => by
      cases slots with
      | nil => simp at head
      | cons slot' rest =>
          obtain rfl := Option.some.inj head
          exact tight_kept token binary slot' (first slot' rfl) needs)
  rw [advance_of_operator _ _ rfl operator]
  simp [Reading.advanceOperator, binds, freed, kept, plug_edge]

theorem advance_before (token : Token T σ) (fits : IsPrefix token) (slots : List (Slot T σ)) (lost : Nat) :
    Reading.advance ⟨slots, none, none, lost⟩ token = some ([], ⟨.before token :: slots, none, none, lost⟩) := by
  rw [advance_of_operator _ _ rfl fits.role]
  simp [Reading.advanceOperator, fits.alone]

theorem advance_comma (p : Phrase T σ) (fits : p.Fits) (name opening comma : Token T σ)
    (role : comma.role = .separator) (done : Option (Arguments T σ × Token T σ))
    (slots : List (Slot T σ)) (lost : Nat) :
    Reading.advance ⟨edge p ++ .call name opening done :: slots, some (tip p), none, lost⟩ comma =
      some (Reading.stackOf (edge p),
        ⟨.call name opening (some (withArgument done p, comma)) :: slots, none, none, lost⟩) := by
  obtain ⟨freed, kept⟩ := bracket_freed p fits (.call name opening done) slots rfl (some (tip p)) lost
  simp [Reading.advance, role, Reading.advanceSeparator, freed, kept, plug_edge]

theorem advance_close_call (p : Phrase T σ) (fits : p.Fits) (name opening closing : Token T σ)
    (role : closing.role = .closeParen) (done : Option (Arguments T σ × Token T σ))
    (slots : List (Slot T σ)) (lost : Nat) :
    Reading.advance ⟨edge p ++ .call name opening done :: slots, some (tip p), none, lost⟩ closing =
      some (Reading.stackOf (edge p) ++ [Reading.counted name (argumentCount (withArgument done p))],
        ⟨slots, some (.call name opening (withArgument done p) closing), none, lost⟩) := by
  obtain ⟨freed, kept⟩ := bracket_freed p fits (.call name opening done) slots rfl (some (tip p)) lost
  simp [Reading.advance, role, Reading.advanceClose, freed, kept, plug_edge]

theorem advance_close_group (p : Phrase T σ) (fits : p.Fits) (opening closing : Token T σ)
    (role : closing.role = .closeParen) (slots : List (Slot T σ)) (lost : Nat) :
    Reading.advance ⟨edge p ++ .group opening :: slots, some (tip p), none, lost⟩ closing =
      some (Reading.stackOf (edge p), ⟨slots, some (.group opening p closing), none, lost⟩) := by
  obtain ⟨freed, kept⟩ := bracket_freed p fits (.group opening) slots rfl (some (tip p)) lost
  simp [Reading.advance, role, Reading.advanceClose, freed, kept, plug_edge]

theorem run_opening (name opening : Token T σ) (function : IsFunction name)
    (parenthesis : opening.role = .openParen) (rest : List (Token T σ)) (slots : List (Slot T σ)) (lost : Nat) :
    Reading.run ⟨slots, none, none, lost⟩ (name :: opening :: rest) =
      Reading.run ⟨.call name opening none :: slots, none, none, lost⟩ rest := by
  simp [Reading.run, Reading.advance, function.role, parenthesis, Reading.drop]

mutual
theorem run_phrase (p : Phrase T σ) (fits : p.Fits) (slots : List (Slot T σ)) (lost : Nat)
    (first : ∀ slot, slots.head? = some slot → slot.Fits) (needs : needOf slots ≤ p.rank) :
    Reading.run ⟨slots, none, none, lost⟩ p.tokens = some ⟨edge p ++ slots, some (tip p), none, lost⟩ := by
  cases p with
  | operand token =>
      have role : token.role = .operand := fits
      simp [Phrase.tokens, Reading.run, Reading.advance, role, Reading.drop, edge, tip]
  | group opening inner closing =>
      obtain ⟨openRole, innerFits, closeRole⟩ := fits
      have inside := run_phrase inner innerFits (.group opening :: slots) lost
        (by rintro slot ⟨⟩; exact openRole) (Nat.zero_le _)
      have opened : Reading.advance ⟨slots, none, none, lost⟩ opening =
          some ([], ⟨.group opening :: slots, none, none, lost⟩) := by
        simp [Reading.advance, openRole, Reading.drop]
      simp [Phrase.tokens, Reading.run, run_append, opened, inside,
        advance_close_group inner innerFits opening closing closeRole, edge, tip]
  | emptyCall name opening closing =>
      obtain ⟨nameRole, openRole, closeRole⟩ := fits
      rw [Phrase.tokens, run_opening name opening nameRole openRole]
      simp [Reading.run, Reading.advance, closeRole, Reading.advanceClose, Reading.freed, Reading.kept,
        Slot.freed, Slot.waiting?, edge, tip]
  | call name opening args closing =>
      obtain ⟨nameRole, openRole, argsFit, closeRole⟩ := fits
      have inside := run_arguments args argsFit name opening nameRole openRole slots lost
      rw [Phrase.tokens, run_opening name opening nameRole openRole, run_append, inside.2]
      simp [Reading.run, advance_close_call (lastArgument args) inside.1 name opening closing closeRole,
        with_last_argument, edge, tip]
  | before operator inner =>
      obtain ⟨operatorFits, enough, innerFits⟩ := fits
      have inside := run_phrase inner innerFits (.before operator :: slots) lost
        (by rintro slot ⟨⟩; exact operatorFits) enough
      simp [Phrase.tokens, Reading.run, advance_before operator operatorFits, inside, edge, tip]
  | between left operator right =>
      obtain ⟨binary, leftEnough, rightEnough, leftFits, rightFits⟩ := fits
      have leftNeeds : needOf slots ≤ left.rank := by
        have own : operator.form.precedence ≤ leftNeed operator := by
          unfold leftNeed
          split <;> omega
        exact Nat.le_trans needs (Nat.le_trans own leftEnough)
      have before := run_phrase left leftFits slots lost first leftNeeds
      have after := run_phrase right rightFits (.between left operator :: slots) lost
        (by rintro slot ⟨⟩; exact ⟨binary, leftEnough, leftFits⟩) rightEnough
      have binds : operator.form.isPrefix = false := by
        obtain ⟨op, action⟩ := binary.action
        simp [Form.isPrefix, action]
      have between := advance_between left leftFits operator binary binds leftEnough slots lost first needs
      simp [Phrase.tokens, Reading.run, run_append, before, between, after, edge, tip]
theorem run_arguments (args : Arguments T σ) (fits : ArgumentsFit args) (name opening : Token T σ)
    (nameRole : IsFunction name) (openRole : opening.role = .openParen) (slots : List (Slot T σ))
    (lost : Nat) :
    (lastArgument args).Fits ∧
      Reading.run ⟨.call name opening none :: slots, none, none, lost⟩ (argumentTokens args) =
        some ⟨edge (lastArgument args) ++ .call name opening (earlier args) :: slots,
          some (tip (lastArgument args)), none, lost⟩ := by
  cases args with
  | one arg =>
      exact ⟨fits, run_phrase arg fits (.call name opening none :: slots) lost
        (by rintro slot ⟨⟩; exact ⟨nameRole, openRole⟩) (Nat.zero_le _)⟩
  | more init comma arg =>
      obtain ⟨initFit, commaRole, argFits⟩ := fits
      have before := run_arguments init initFit name opening nameRole openRole slots lost
      have after := run_phrase arg argFits (.call name opening (some (init, comma)) :: slots) lost
        (by rintro slot ⟨⟩; exact ⟨nameRole, openRole, initFit, commaRole⟩) (Nat.zero_le _)
      have between := advance_comma (lastArgument init) before.1 name opening comma commaRole (earlier init) slots lost
      rw [with_last_argument] at between
      refine ⟨argFits, ?_⟩
      rw [argumentTokens, run_append, before.2, Option.bind_some, Reading.run, between]
      exact after
end

theorem sentence_is_read (p : Phrase T σ) (fits : p.Fits) :
    ∃ last, Reading.start.run p.tokens = some last ∧ last.result? = some p := by
  have ran := run_phrase p fits [] 0 (by simp) (Nat.zero_le _)
  refine ⟨_, ran, ?_⟩
  obtain ⟨freed, kept⟩ := freed_exactly Reading.notOpen (edge p) [] (some (tip p)) none 0
    (fun slot member => by
      obtain ⟨waits, slotFits, -⟩ := edge_fits p fits slot member
      exact operator_not_open slot waits (slot_fits_formed slot slotFits))
    (by simp)
  simp only [Reading.result?, freed, kept, plug_edge]

theorem sentence_unique (p q : Phrase T σ) (pFits : p.Fits) (qFits : q.Fits) (same : p.tokens = q.tokens) :
    p = q := by
  obtain ⟨lastP, ranP, resultP⟩ := sentence_is_read p pFits
  obtain ⟨lastQ, ranQ, resultQ⟩ := sentence_is_read q qFits
  rw [same, ranQ, Option.some.injEq] at ranP
  rw [← ranP, resultQ] at resultP
  exact (Option.some.inj resultP).symm

end Formula.Phrase
