import Formula.Proofs.Phrase.Reading

set_option autoImplicit false

namespace Formula

variable {T σ : Type}

theorem Form.prefix_operator (form : Form T σ) (before : form.isPrefix = true) : form.role.isOperator = true :=
  (Bool.and_eq_true_iff.mp before).1

namespace Phrase

mutual
def Formed : Phrase T σ → Prop
  | .operand token => token.role = .operand
  | .group opening inner closing =>
      opening.role = .openParen ∧ inner.Formed ∧ closing.role = .closeParen
  | .emptyCall name opening closing =>
      name.role = .function ∧ opening.role = .openParen ∧ closing.role = .closeParen
  | .call name opening args closing =>
      name.role = .function ∧ opening.role = .openParen ∧ ArgumentsFormed args ∧
        closing.role = .closeParen
  | .before operator inner =>
      operator.role.isOperator = true ∧ operator.lone.form.isPrefix = true ∧ inner.Formed
  | .between left operator right =>
      operator.role.isOperator = true ∧ operator.form.isPrefix = false ∧ left.Formed ∧ right.Formed
def ArgumentsFormed : Arguments T σ → Prop
  | .one arg => arg.Formed
  | .more args comma arg => ArgumentsFormed args ∧ comma.role = .separator ∧ arg.Formed
end

theorem binary_formed (operator : Token T σ) (binary : IsBinary operator) :
    operator.role.isOperator = true ∧ operator.form.isPrefix = false := by
  obtain ⟨op, action⟩ := binary.action
  rcases binary_level operator binary with level | level <;>
    exact ⟨by simp [level.1, Role.isOperator], by simp [Form.isPrefix, action]⟩

mutual
theorem fits_formed (p : Phrase T σ) (fits : p.Fits) : p.Formed := by
  cases p with
  | operand token => exact fits
  | group opening inner closing => exact ⟨fits.1, fits_formed inner fits.2.1, fits.2.2⟩
  | emptyCall name opening closing => exact ⟨fits.1.role, fits.2⟩
  | call name opening args closing =>
      exact ⟨fits.1.role, fits.2.1, arguments_fit_formed args fits.2.2.1, fits.2.2.2⟩
  | before operator inner => exact ⟨fits.1.role, fits.1.alone, fits_formed inner fits.2.2⟩
  | between left operator right =>
      obtain ⟨binary, -, -, leftFits, rightFits⟩ := fits
      exact ⟨(binary_formed operator binary).1, (binary_formed operator binary).2, fits_formed left leftFits,
        fits_formed right rightFits⟩
theorem arguments_fit_formed (args : Arguments T σ) (fits : ArgumentsFit args) : ArgumentsFormed args := by
  cases args with
  | one arg => exact fits_formed arg fits
  | more init comma arg => exact ⟨arguments_fit_formed init fits.1, fits.2.1, fits_formed arg fits.2.2⟩
end

def Slot.Formed : Slot T σ → Prop
  | .group opening => opening.role = .openParen
  | .call name opening none => name.role = .function ∧ opening.role = .openParen
  | .call name opening (some (args, comma)) =>
      name.role = .function ∧ opening.role = .openParen ∧ ArgumentsFormed args ∧ comma.role = .separator
  | .before operator => operator.role.isOperator = true ∧ operator.lone.form.isPrefix = true
  | .between left operator =>
      operator.role.isOperator = true ∧ operator.form.isPrefix = false ∧ left.Formed

structure Reading.Formed (reading : Reading T σ) : Prop where
  slots : ∀ slot ∈ reading.slots, slot.Formed
  current : ∀ p, reading.current = some p → p.Formed
  pending : ∀ name, reading.pending = some name → name.role = .function
  paused : reading.Paused

theorem slot_fits_formed (slot : Slot T σ) (fits : slot.Fits) : slot.Formed := by
  cases slot with
  | group opening => exact fits
  | call name opening done =>
      cases done with
      | none => exact ⟨fits.1.role, fits.2⟩
      | some pair => exact ⟨fits.1.role, fits.2.1, arguments_fit_formed pair.1 fits.2.2.1, fits.2.2.2⟩
  | before operator => exact ⟨fits.role, fits.alone⟩
  | between left operator =>
      exact ⟨(binary_formed operator fits.1).1, (binary_formed operator fits.1).2, fits_formed left fits.2.2⟩

theorem slots_fit_formed (slots : List (Slot T σ)) (fits : SlotsFit slots) : ∀ slot ∈ slots, slot.Formed := by
  induction slots with
  | nil => simp
  | cons slot rest ih => exact List.forall_mem_cons.mpr ⟨slot_fits_formed slot fits.1, ih fits.2.2⟩

theorem Reading.Fits.formed (reading : Reading T σ) (fits : reading.Fits) : reading.Formed where
  slots := slots_fit_formed reading.slots fits.slots
  current p present := fits_formed p (fits.current p present).1
  pending name waits := (fits.pending name waits).1.role
  paused name waits := (fits.pending name waits).2

theorem start_formed : (Reading.start : Reading T σ).Formed := start_fits.formed

theorem call_formed (name opening : Token T σ) (done : Option (Arguments T σ × Token T σ))
    (formed : (Slot.call name opening done).Formed) : name.role = .function ∧ opening.role = .openParen := by
  cases done with
  | none => exact formed
  | some pair => exact ⟨formed.1, formed.2.1⟩

theorem with_argument_formed (name opening : Token T σ) (done : Option (Arguments T σ × Token T σ))
    (arg : Phrase T σ) (slotFormed : (Slot.call name opening done).Formed) (formed : arg.Formed) :
    ArgumentsFormed (withArgument done arg) := by
  cases done with
  | none => exact formed
  | some pair => exact ⟨slotFormed.2.2.1, slotFormed.2.2.2, formed⟩

theorem operator_role (token : Token T σ) (operator : token.role.isOperator = true) :
    token.role = .leftOperator ∨ token.role = .rightOperator := by
  cases role : token.role <;> simp_all [Role.isOperator]

theorem operator_elsewhere (token : Token T σ) (operator : token.role.isOperator = true) :
    token.role ≠ .operand ∧ token.role ≠ .closeParen := by
  rcases operator_role token operator with role | role <;> simp [role]

theorem operator_not_opening (token : Token T σ) (operator : token.role.isOperator = true) :
    Reading.notOpen token = true := by
  rcases operator_role token operator with role | role <;> simp [Reading.notOpen, Order.isOpen, role]

theorem waiting_operator (slot : Slot T σ) (formed : slot.Formed) :
    ∀ token ∈ slot.waiting?, token.role.isOperator = true := by
  rintro token waits
  cases slot with
  | group _ => simp [Slot.waiting?] at waits
  | call _ _ _ => simp [Slot.waiting?] at waits
  | before operator =>
      obtain rfl := Option.some.inj waits
      exact Form.prefix_operator _ formed.2
  | between left operator =>
      obtain rfl := Option.some.inj waits
      exact formed.1

theorem plug_formed (slot : Slot T σ) (p : Phrase T σ) (waits : slot.waiting?.isSome = true)
    (slotFormed : slot.Formed) (formed : p.Formed) : (slot.plug p).Formed := by
  cases slot with
  | group _ => simp [Slot.waiting?] at waits
  | call _ _ _ => simp [Slot.waiting?] at waits
  | before operator => exact ⟨slotFormed.1, slotFormed.2, formed⟩
  | between left operator => exact ⟨slotFormed.1, slotFormed.2.1, slotFormed.2.2, formed⟩

theorem plug_all_formed (slots : List (Slot T σ)) (p : Phrase T σ)
    (waits : ∀ slot ∈ slots, slot.waiting?.isSome = true) (slotsFormed : ∀ slot ∈ slots, slot.Formed)
    (formed : p.Formed) : (plugAll slots p).Formed := by
  induction slots generalizing p with
  | nil => exact formed
  | cons slot rest ih =>
      rw [List.forall_mem_cons] at waits slotsFormed
      exact ih (slot.plug p) waits.2 slotsFormed.2 (plug_formed slot p waits.1 slotsFormed.1 formed)

theorem settled_formed (free : Token T σ → Bool) (reading : Reading T σ) (formed : reading.Formed)
    (p : Phrase T σ) (present : reading.current = some p) :
    (plugAll (reading.freed free) p).Formed ∧ ∀ slot ∈ reading.kept free, slot.Formed :=
  ⟨plug_all_formed _ p (freed_all_wait free reading)
      (fun slot member => formed.slots slot ((List.takeWhile_sublist _).subset member)) (formed.current p present),
    fun slot member => formed.slots slot ((List.dropWhile_sublist _).subset member)⟩

theorem advance_operator_formed (reading next : Reading T σ) (token : Token T σ) (out : List (Token T σ))
    (formed : reading.Formed) (operator : token.role.isOperator = true)
    (taken : reading.advanceOperator token = some (out, next)) : ∀ slot ∈ next.slots, slot.Formed := by
  unfold Reading.advanceOperator at taken
  cases present : reading.current with
  | none =>
      simp only [present, Option.ite_none_right_eq_some, Option.some.injEq, Prod.mk.injEq] at taken
      obtain ⟨alone, -, rfl⟩ := taken
      exact List.forall_mem_cons.mpr ⟨⟨operator, alone⟩, formed.slots⟩
  | some p =>
      simp only [present, Option.ite_none_left_eq_some, Option.some.injEq, Prod.mk.injEq] at taken
      obtain ⟨binds, -, rfl⟩ := taken
      obtain ⟨left, kept⟩ := settled_formed (Order.releases token) reading formed p present
      exact List.forall_mem_cons.mpr ⟨⟨operator, by simpa using binds, left⟩, kept⟩

theorem advance_separator_formed (reading next : Reading T σ) (token : Token T σ) (out : List (Token T σ))
    (formed : reading.Formed) (separator : token.role = .separator)
    (taken : reading.advanceSeparator token = some (out, next)) : ∀ slot ∈ next.slots, slot.Formed := by
  unfold Reading.advanceSeparator at taken
  split at taken
  · rename_i p name opening done rest present kept
    simp only [Option.some.injEq, Prod.mk.injEq] at taken
    obtain ⟨-, rfl⟩ := taken
    obtain ⟨arg, keptFormed⟩ := settled_formed Reading.notOpen reading formed p present
    rw [kept, List.forall_mem_cons] at keptFormed
    obtain ⟨nameRole, openRole⟩ := call_formed name opening done keptFormed.1
    have args := with_argument_formed name opening done _ keptFormed.1 arg
    exact List.forall_mem_cons.mpr ⟨⟨nameRole, openRole, args, separator⟩, keptFormed.2⟩
  · exact absurd taken (by simp)

theorem advance_close_formed (reading next : Reading T σ) (token : Token T σ) (out : List (Token T σ))
    (formed : reading.Formed) (closing : token.role = .closeParen)
    (taken : reading.advanceClose token = some (out, next)) :
    (∀ slot ∈ next.slots, slot.Formed) ∧ ∀ p, next.current = some p → p.Formed := by
  unfold Reading.advanceClose at taken
  split at taken
  · rename_i p name opening done rest present kept
    simp only [Option.some.injEq, Prod.mk.injEq] at taken
    obtain ⟨-, rfl⟩ := taken
    obtain ⟨arg, keptFormed⟩ := settled_formed Reading.notOpen reading formed p present
    rw [kept, List.forall_mem_cons] at keptFormed
    obtain ⟨nameRole, openRole⟩ := call_formed name opening done keptFormed.1
    refine ⟨keptFormed.2, ?_⟩
    rintro q ⟨⟩
    exact ⟨nameRole, openRole, with_argument_formed name opening done _ keptFormed.1 arg, closing⟩
  · rename_i p opening rest present kept
    simp only [Option.some.injEq, Prod.mk.injEq] at taken
    obtain ⟨-, rfl⟩ := taken
    obtain ⟨inner, keptFormed⟩ := settled_formed Reading.notOpen reading formed p present
    rw [kept, List.forall_mem_cons] at keptFormed
    refine ⟨keptFormed.2, ?_⟩
    rintro q ⟨⟩
    exact ⟨keptFormed.1, inner, closing⟩
  · rename_i name opening rest absent kept
    simp only [Option.ite_none_right_eq_some, Option.some.injEq, Prod.mk.injEq] at taken
    obtain ⟨-, -, rfl⟩ := taken
    have keptFormed : ∀ slot ∈ reading.kept Reading.notOpen, slot.Formed :=
      fun slot member => formed.slots slot ((List.dropWhile_sublist _).subset member)
    rw [kept, List.forall_mem_cons] at keptFormed
    refine ⟨keptFormed.2, ?_⟩
    rintro q ⟨⟩
    exact ⟨keptFormed.1.1, keptFormed.1.2, closing⟩
  · exact absurd taken (by simp)

theorem advance_formed (reading next : Reading T σ) (token : Token T σ) (out : List (Token T σ))
    (formed : reading.Formed) (taken : reading.advance token = some (out, next)) : next.Formed := by
  have paused := advance_paused reading next token out taken
  have bare (slots : ∀ slot ∈ next.slots, slot.Formed) (absent : next.current = none)
      (idle : next.pending = none) : next.Formed := ⟨slots, by simp [absent], by simp [idle], paused⟩
  unfold Reading.advance at taken
  split at taken
  case h_1 name pending opening =>
    simp only [Option.some.injEq, Prod.mk.injEq] at taken
    obtain ⟨-, rfl⟩ := taken
    exact bare (List.forall_mem_cons.mpr ⟨⟨formed.pending name pending, opening⟩, formed.slots⟩)
      (formed.paused name pending) rfl
  case h_2 => exact absurd taken (by simp)
  case h_3 idle operand =>
    simp only [Option.some.injEq, Prod.mk.injEq] at taken
    obtain ⟨-, rfl⟩ := taken
    exact ⟨formed.slots, by rintro q ⟨⟩; exact operand, by simp [Reading.drop, idle], paused⟩
  case h_4 idle function =>
    simp only [Option.some.injEq, Prod.mk.injEq] at taken
    obtain ⟨-, rfl⟩ := taken
    exact ⟨formed.slots, by simp [Reading.drop], by rintro name ⟨⟩; exact function, paused⟩
  case h_5 idle opening =>
    simp only [Option.some.injEq, Prod.mk.injEq] at taken
    obtain ⟨-, rfl⟩ := taken
    exact bare (List.forall_mem_cons.mpr ⟨opening, formed.slots⟩) rfl idle
  case h_6 idle role =>
    have after := advance_operator_bare reading next token out taken
    exact bare (advance_operator_formed reading next token out formed (by rw [role]; rfl) taken) after.1
      (after.2.trans idle)
  case h_7 idle role =>
    have after := advance_operator_bare reading next token out taken
    exact bare (advance_operator_formed reading next token out formed (by rw [role]; rfl) taken) after.1
      (after.2.trans idle)
  case h_8 idle role =>
    have after := advance_separator_bare reading next token out taken
    exact bare (advance_separator_formed reading next token out formed role taken) after.1 (after.2.trans idle)
  case h_9 idle role =>
    obtain ⟨slots, current⟩ := advance_close_formed reading next token out formed role taken
    exact ⟨slots, current, by simp [(advance_close_complete reading next token out taken).2, idle], paused⟩

theorem run_formed (tokens : List (Token T σ)) (reading last : Reading T σ) (formed : reading.Formed)
    (ran : reading.run tokens = some last) : last.Formed := by
  induction tokens generalizing reading with
  | nil =>
      obtain rfl := Option.some.inj ran
      exact formed
  | cons token rest ih =>
      obtain ⟨⟨out, next⟩, taken, later⟩ := Option.bind_eq_some_iff.mp ran
      exact ih next (advance_formed reading next token out formed taken) later

theorem result_formed (reading : Reading T σ) (formed : reading.Formed) (p : Phrase T σ)
    (result : reading.result? = some p) : p.Formed := by
  unfold Reading.result? at result
  split at result
  · rename_i q _ present _ _
    obtain rfl := Option.some.inj result
    exact (settled_formed Reading.notOpen reading formed q present).1
  · exact absurd result (by simp)

end Phrase

end Formula
