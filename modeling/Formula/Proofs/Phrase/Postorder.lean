import Formula.Proofs.Phrase.Leaving
import Formula.Proofs.Phrase.Taking
import Mathlib.Data.List.Chain

set_option autoImplicit false

namespace Formula.Phrase

variable {T σ : Type}

def Slot.written : Slot T σ → List (Token T σ)
  | .group _ | .before _ | .call _ _ none => []
  | .call _ _ (some (args, _)) => argumentsPostorder args
  | .between left _ => left.postorder

def Reading.written (reading : Reading T σ) : List (Token T σ) :=
  reading.slots.reverse.flatMap Slot.written ++ (reading.current.map postorder).getD []

theorem plug_all_postorder (slots : List (Slot T σ)) (p : Phrase T σ)
    (waits : ∀ slot ∈ slots, slot.waiting?.isSome = true) :
    (plugAll slots p).postorder = slots.reverse.flatMap Slot.written ++ (p.postorder ++ Reading.stackOf slots) := by
  induction slots generalizing p with
  | nil => simp [plugAll, Reading.stackOf]
  | cons slot rest ih =>
      rw [List.forall_mem_cons] at waits
      have plugged : (slot.plug p).postorder = slot.written ++ (p.postorder ++ slot.stack) := by
        cases slot with
        | group _ => simp [Slot.waiting?] at waits
        | call _ _ _ => simp [Slot.waiting?] at waits
        | before operator => rfl
        | between left operator => rfl
      rw [plugAll, List.foldl_cons, ← plugAll, ih _ waits.2, plugged]
      simp [Reading.stackOf]

theorem settled_postorder (free : Token T σ → Bool) (reading : Reading T σ) (p : Phrase T σ)
    (present : reading.current = some p) :
    (reading.kept free).reverse.flatMap Slot.written ++ (plugAll (reading.freed free) p).postorder =
      reading.written ++ Reading.stackOf (reading.freed free) := by
  rw [plug_all_postorder _ _ (freed_all_wait free reading), Reading.written, present, ← reading.freed_kept free]
  simp

theorem with_argument_postorder (name opening : Token T σ) (done : Option (Arguments T σ × Token T σ))
    (arg : Phrase T σ) :
    argumentsPostorder (withArgument done arg) = (Slot.call name opening done).written ++ arg.postorder := by
  cases done <;> simp [withArgument, argumentsPostorder, Slot.written]

theorem advance_operator_written (reading next : Reading T σ) (token : Token T σ) (out : List (Token T σ))
    (taken : reading.advanceOperator token = some (out, next)) : next.written = reading.written ++ out := by
  unfold Reading.advanceOperator at taken
  cases present : reading.current with
  | none =>
      simp only [present, Option.ite_none_right_eq_some, Option.some.injEq, Prod.mk.injEq] at taken
      obtain ⟨-, rfl, rfl⟩ := taken
      simp [Reading.written, present, Slot.written]
  | some p =>
      simp only [present, Option.ite_none_left_eq_some, Option.some.injEq, Prod.mk.injEq] at taken
      obtain ⟨-, rfl, rfl⟩ := taken
      rw [← settled_postorder (Order.releases token) reading p present]
      simp [Reading.written, Slot.written]

theorem advance_separator_written (reading next : Reading T σ) (token : Token T σ) (out : List (Token T σ))
    (taken : reading.advanceSeparator token = some (out, next)) : next.written = reading.written ++ out := by
  unfold Reading.advanceSeparator at taken
  split at taken
  · rename_i p name opening done rest present kept
    simp only [Option.some.injEq, Prod.mk.injEq] at taken
    obtain ⟨rfl, rfl⟩ := taken
    have settled := settled_postorder Reading.notOpen reading p present
    rw [kept] at settled
    rw [← settled]
    simp [Reading.written, Slot.written, with_argument_postorder name opening]
  · exact absurd taken (by simp)

theorem advance_close_written (reading next : Reading T σ) (token : Token T σ) (out : List (Token T σ))
    (taken : reading.advanceClose token = some (out, next)) : next.written = reading.written ++ out := by
  unfold Reading.advanceClose at taken
  split at taken
  · rename_i p name opening done rest present kept
    simp only [Option.some.injEq, Prod.mk.injEq] at taken
    obtain ⟨rfl, rfl⟩ := taken
    have settled := settled_postorder Reading.notOpen reading p present
    rw [kept] at settled
    rw [← List.append_assoc, ← settled]
    simp [Reading.written, Phrase.postorder, with_argument_postorder name opening]
  · rename_i p opening rest present kept
    simp only [Option.some.injEq, Prod.mk.injEq] at taken
    obtain ⟨rfl, rfl⟩ := taken
    have settled := settled_postorder Reading.notOpen reading p present
    rw [kept] at settled
    rw [← settled]
    simp [Reading.written, Phrase.postorder, Slot.written]
  · rename_i name opening rest absent kept
    simp only [Option.ite_none_right_eq_some, Option.some.injEq, Prod.mk.injEq] at taken
    obtain ⟨blank, rfl, rfl⟩ := taken
    have slots := reading.freed_kept Reading.notOpen
    rw [blank, kept, List.nil_append] at slots
    simp [Reading.written, absent, Phrase.postorder, Slot.written, ← slots]
  · exact absurd taken (by simp)

theorem advance_written (reading next : Reading T σ) (token : Token T σ) (out : List (Token T σ))
    (formed : reading.Formed) (stands : token.role.starts = true → reading.current = none)
    (taken : reading.advance token = some (out, next)) :
    next.written = reading.written ++ out ∧ next.lost = reading.lost := by
  have same (starts : token.role.starts = true) : reading.drop = reading :=
    drop_same reading (by simp [Reading.drop, stands starts])
  unfold Reading.advance at taken
  split at taken
  case h_1 name pending opening =>
    simp only [Option.some.injEq, Prod.mk.injEq] at taken
    obtain ⟨rfl, rfl⟩ := taken
    simp [Reading.written, formed.paused name pending, Slot.written]
  case h_2 => exact absurd taken (by simp)
  case h_3 idle role =>
    simp only [Option.some.injEq, Prod.mk.injEq] at taken
    obtain ⟨rfl, rfl⟩ := taken
    have starts : token.role.starts = true := by rw [role]; rfl
    simp [same starts, Reading.written, stands starts, Phrase.postorder]
  case h_4 idle role =>
    simp only [Option.some.injEq, Prod.mk.injEq] at taken
    obtain ⟨rfl, rfl⟩ := taken
    have starts : token.role.starts = true := by rw [role]; rfl
    simp [same starts, Reading.written]
  case h_5 idle role =>
    simp only [Option.some.injEq, Prod.mk.injEq] at taken
    obtain ⟨rfl, rfl⟩ := taken
    have starts : token.role.starts = true := by rw [role]; rfl
    simp [same starts, Reading.written, Slot.written]
  case h_6 idle _ =>
    exact ⟨advance_operator_written reading next token out taken,
      (advance_operator_tokens reading next token out idle taken).2⟩
  case h_7 idle _ =>
    exact ⟨advance_operator_written reading next token out taken,
      (advance_operator_tokens reading next token out idle taken).2⟩
  case h_8 idle _ =>
    exact ⟨advance_separator_written reading next token out taken,
      (advance_separator_tokens reading next token out idle taken).2⟩
  case h_9 idle _ =>
    exact ⟨advance_close_written reading next token out taken,
      (advance_close_tokens reading next token out idle taken).2⟩

-- An operator lets go what waits directly before it, if that is an operator that binds more tightly.
def Spares (before after : Token T σ) : Prop := after.role.isOperator = true → Order.releases after before = false

-- No operator of the text lets the one directly before it go, which still waits for its operand.
def Patient (tokens : List (Token T σ)) : Prop := (asRead false tokens).IsChain Spares

def Reading.Awaits (reading : Reading T σ) (before : Option (Token T σ)) : Prop :=
  reading.current = none → reading.pending = none →
    ∀ slot ∈ reading.slots.head?, ∀ token ∈ slot.waiting?, before = some token

theorem advance_awaits (reading next : Reading T σ) (token : Token T σ) (out : List (Token T σ))
    (taken : reading.advance token = some (out, next)) :
    next.Awaits (some (token.asRead reading.current.isSome)) := by
  have operator (role : token.role.isOperator = true) (taken : reading.advanceOperator token = some (out, next)) :
      next.Awaits (some (token.asRead reading.current.isSome)) := by
    rintro - - slot first waiting waits
    unfold Reading.advanceOperator at taken
    cases present : reading.current with
    | none =>
        simp only [present, Option.ite_none_right_eq_some, Option.some.injEq, Prod.mk.injEq] at taken
        obtain ⟨-, -, rfl⟩ := taken
        obtain rfl := Option.some.inj first
        obtain rfl := Option.some.inj waits
        simp [Token.asRead, role]
    | some p =>
        simp only [present, Option.ite_none_left_eq_some, Option.some.injEq, Prod.mk.injEq] at taken
        obtain ⟨-, -, rfl⟩ := taken
        obtain rfl := Option.some.inj first
        obtain rfl := Option.some.inj waits
        simp [Token.asRead]
  unfold Reading.advance at taken
  split at taken
  case h_1 name pending opening =>
    simp only [Option.some.injEq, Prod.mk.injEq] at taken
    obtain ⟨-, rfl⟩ := taken
    rintro - - slot first waiting waits
    obtain rfl := Option.some.inj first
    simp [Slot.waiting?] at waits
  case h_2 => exact absurd taken (by simp)
  case h_3 =>
    simp only [Option.some.injEq, Prod.mk.injEq] at taken
    obtain ⟨-, rfl⟩ := taken
    exact fun absent => absurd absent (by simp)
  case h_4 =>
    simp only [Option.some.injEq, Prod.mk.injEq] at taken
    obtain ⟨-, rfl⟩ := taken
    exact fun _ idle => absurd idle (by simp)
  case h_5 =>
    simp only [Option.some.injEq, Prod.mk.injEq] at taken
    obtain ⟨-, rfl⟩ := taken
    rintro - - slot first waiting waits
    obtain rfl := Option.some.inj first
    simp [Slot.waiting?] at waits
  case h_6 idle role => exact operator (by rw [role]; rfl) taken
  case h_7 idle role => exact operator (by rw [role]; rfl) taken
  case h_8 =>
    unfold Reading.advanceSeparator at taken
    split at taken <;> simp only [Option.some.injEq, Prod.mk.injEq, reduceCtorEq] at taken
    obtain ⟨-, rfl⟩ := taken
    rintro - - slot first waiting waits
    obtain rfl := Option.some.inj first
    simp [Slot.waiting?] at waits
  case h_9 =>
    have complete := (advance_close_complete reading next token out taken).1
    exact fun absent => absurd absent (by simpa [Option.isSome_iff_ne_none] using complete)

theorem awaits_spared (reading : Reading T σ) (before : Option (Token T σ)) (token : Token T σ)
    (awaits : reading.Awaits before)
    (spares : ∀ waiting ∈ before, Spares waiting (token.asRead reading.current.isSome)) : reading.Spared token := by
  intro absent idle operator prefixed
  have lone : token.asRead reading.current.isSome = token.lone := by simp [Token.asRead, absent, operator]
  rw [lone] at spares
  cases slots : reading.slots with
  | nil => rfl
  | cons slot rest =>
      apply List.takeWhile_cons_of_neg
      cases waits : slot.waiting? with
      | none => simp [Slot.freed, waits]
      | some waiting =>
          have before := awaits absent idle slot (by simp [slots]) waiting waits
          simp [Slot.freed, waits, spares waiting before (Form.prefix_operator _ prefixed)]

theorem stands_expected (reading : Reading T σ) (formed : reading.Formed)
    (expects : reading.order.expectsOperand = true) : reading.current = none := by
  cases pending : reading.pending with
  | some name => exact formed.paused name pending
  | none => simpa using (expects_operand reading formed pending).symm.trans expects

theorem takes_read (expression : String) (state next : Order T σ) (tokens out : List (Token T σ))
    (taken : Takes expression state tokens out next) (reading : Reading T σ) (formed : reading.Formed)
    (same : reading.order = state) (lone : ∀ token ∈ tokens, ∀ form, token.alone = some form → form.isPrefix = true)
    (before : Option (Token T σ)) (awaits : reading.Awaits before)
    (patient : (before.toList ++ asRead reading.current.isSome tokens).IsChain Spares) :
    ∃ last, reading.run tokens = some last ∧ last.order = next ∧ last.written = reading.written ++ out ∧
      last.lost = reading.lost := by
  induction taken generalizing reading before with
  | nil => exact ⟨reading, rfl, same, by simp, rfl⟩
  | cons state middle next token rest now later stands accepted _ ih =>
      subst same
      rw [List.forall_mem_cons] at lone
      rw [asRead, List.isChain_append] at patient
      have spared := awaits_spared reading before token awaits fun waiting held => by
        obtain rfl := held
        exact patient.2.2 waiting (by simp) _ (by simp)
      have agrees := accept_order expression reading token formed lone.1 spared
      cases step : reading.advance token with
      | none =>
          rw [step] at agrees
          obtain ⟨error, refused⟩ := agrees
          exact absurd (accepted.symm.trans refused) (by simp)
      | some pair =>
          obtain ⟨out, inner⟩ := pair
          rw [step] at agrees
          obtain ⟨rfl, rfl⟩ := Prod.mk.inj (Except.ok.inj (accepted.symm.trans agrees))
          obtain ⟨grown, lost⟩ := advance_written reading inner token now formed
            (fun starts => stands_expected reading formed (stands starts)) step
          have onward : (some (token.asRead reading.current.isSome)).toList ++ asRead inner.current.isSome rest =
              token.asRead reading.current.isSome :: asRead token.role.completes rest := by
            rw [advance_completes reading inner token now formed.paused step]
            rfl
          obtain ⟨last, ran, order, written, kept⟩ := ih inner (advance_formed reading inner token now formed step) rfl
            lone.2 (some (token.asRead reading.current.isSome)) (advance_awaits reading inner token now step)
            (onward ▸ patient.2.1)
          refine ⟨last, by rw [Reading.run, step]; exact ran, order, ?_, kept.trans lost⟩
          rw [written, grown, List.append_assoc]

theorem patient_postorder (expression : String) (p : Phrase T σ) (formed : p.Formed)
    (lone : ∀ token ∈ p.tokens, ∀ form, token.alone = some form → form.isPrefix = true) (patient : Patient p.tokens) :
    ∃ q : Phrase T σ, q.Formed ∧ q.tokens = p.tokens ∧
      Postfix.order expression (p.tokens.map .ok) = q.postorder.map .ok := by
  obtain ⟨out, next, taken, past, finished⟩ := sentence_taken expression p formed
  obtain ⟨last, ran, rfl, written, nothing⟩ := takes_read expression _ next p.tokens out taken .start start_formed rfl
    lone none (fun _ _ slot first => by simp [Reading.start] at first) patient
  have lastFormed := run_formed p.tokens .start last start_formed ran
  obtain ⟨idle, kept, -, stack⟩ := (finish_order expression last lastFormed _).mp finished
  obtain ⟨r, present⟩ : ∃ r, last.current = some r := by
    have complete := (expects_operand last lastFormed idle).symm.trans past.complete
    exact Option.isSome_iff_exists.mp (by simpa [Option.isSome_iff_ne_none] using complete)
  have whole := last.freed_kept Reading.notOpen
  rw [kept, List.append_nil] at whole
  have result : last.result? = some (plugAll (last.freed Reading.notOpen) r) := by
    simp [Reading.result?, idle, present, kept, nothing, Reading.start]
  have settled := settled_postorder Reading.notOpen last r present
  rw [kept, whole, written] at settled
  have order : Postfix.order expression (p.tokens.map .ok) = (out ++ Reading.stackOf last.slots).map .ok := by
    have ordered := Takes.order _ last.order p.tokens out taken []
    rw [List.append_nil] at ordered
    rw [Postfix.order, ordered, Order.orderFrom, finished, stack, List.map_append]
  have postorder : (plugAll (last.freed Reading.notOpen) r).postorder = out ++ Reading.stackOf last.slots := by
    simpa [Reading.start, Reading.written, whole] using settled
  refine ⟨_, result_formed last lastFormed _ result, ?_, by rw [order, postorder]⟩
  have read := (run_tokens p.tokens .start last start_paused ran).2 nothing
  simpa [Reading.tokens, Reading.start] using (result_tokens last _ result).2.trans read

end Formula.Phrase
