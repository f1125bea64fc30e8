import Formula.Postfix.Order
import Formula.Proofs.Phrase

/-!
Reading a phrase from left to right. A reading keeps what the order of operations keeps and the
phrases that its tokens belong to. Every step keeps the reading well formed and, as long as no
phrase is lost between two others, loses no token: what is read to the end is a sentence.
-/

set_option autoImplicit false

namespace Formula.Phrase

variable {T σ : Type}

-- What waits for the rest of the text: an open group, an open call with the arguments that are
-- complete and the comma after them, and operators with what stands on their left.
inductive Slot (T σ : Type) where
  | group (opening : Token T σ)
  | call (name opening : Token T σ) (done : Option (Arguments T σ × Token T σ))
  | before (operator : Token T σ)
  | between (left : Phrase T σ) (operator : Token T σ)

namespace Slot

def waiting? : Slot T σ → Option (Token T σ)
  | .before operator => some operator.lone
  | .between _ operator => some operator
  | .group _ | .call _ _ _ => none

def stack : Slot T σ → List (Token T σ)
  | .group opening => [opening]
  | .call name opening _ => [opening, name]
  | .before operator => [operator.lone]
  | .between _ operator => [operator]

def tokens : Slot T σ → List (Token T σ)
  | .group opening => [opening]
  | .call name opening none => [name, opening]
  | .call name opening (some (args, comma)) => name :: opening :: (argumentTokens args ++ [comma])
  | .before operator => [operator]
  | .between left operator => left.tokens ++ [operator]

def plug : Slot T σ → Phrase T σ → Phrase T σ
  | .before operator, p => .before operator p
  | .between left operator, p => .between left operator p
  | .group _, p | .call _ _ _, p => p

def need : Slot T σ → Nat
  | .before _ => unaryPrecedence
  | .between _ operator => rightNeed operator
  | .group _ | .call _ _ _ => 0

def rank : Slot T σ → Nat
  | .before _ => unaryPrecedence
  | .between _ operator => operator.form.precedence
  | .group _ | .call _ _ _ => primary

def Fits : Slot T σ → Prop
  | .group opening => opening.role = .openParen
  | .call name opening none => IsFunction name ∧ opening.role = .openParen
  | .call name opening (some (args, comma)) =>
      IsFunction name ∧ opening.role = .openParen ∧ ArgumentsFit args ∧ comma.role = .separator
  | .before operator => IsPrefix operator
  | .between left operator => IsBinary operator ∧ leftNeed operator ≤ left.rank ∧ left.Fits

def freed (free : Token T σ → Bool) (slot : Slot T σ) : Bool := slot.waiting?.any free

end Slot

def plugAll (slots : List (Slot T σ)) (p : Phrase T σ) : Phrase T σ :=
  slots.foldl (fun inner slot => slot.plug inner) p

def withArgument : Option (Arguments T σ × Token T σ) → Phrase T σ → Arguments T σ
  | none, p => .one p
  | some (args, comma), p => .more args comma p

-- The open parts, the innermost first; the phrase that is complete; the function whose parenthesis
-- comes next; the number of phrases that another one followed with nothing between them.
structure Reading (T σ : Type) where
  slots : List (Slot T σ)
  current : Option (Phrase T σ)
  pending : Option (Token T σ)
  lost : Nat

namespace Reading

def start : Reading T σ := ⟨[], none, none, 0⟩

def drop (reading : Reading T σ) : Reading T σ :=
  { reading with current := none, lost := reading.lost + if reading.current.isSome then 1 else 0 }

def freed (free : Token T σ → Bool) (reading : Reading T σ) : List (Slot T σ) :=
  reading.slots.takeWhile (Slot.freed free)

def kept (free : Token T σ → Bool) (reading : Reading T σ) : List (Slot T σ) :=
  reading.slots.dropWhile (Slot.freed free)

theorem freed_kept (free : Token T σ → Bool) (reading : Reading T σ) :
    reading.freed free ++ reading.kept free = reading.slots :=
  List.takeWhile_append_dropWhile

def stackOf (slots : List (Slot T σ)) : List (Token T σ) := slots.flatMap Slot.stack

def advanceOperator (reading : Reading T σ) (token : Token T σ) :
    Option (List (Token T σ) × Reading T σ) :=
  match reading.current with
  | none =>
      if token.lone.form.isPrefix then
        some ([], { reading with slots := .before token :: reading.slots })
      else
        none
  | some p =>
      if token.form.isPrefix then
        none
      else
        let free := Order.releases token
        some (stackOf (reading.freed free),
          { reading with
            slots := .between (plugAll (reading.freed free) p) token :: reading.kept free
            current := none })

def notOpen (token : Token T σ) : Bool := !Order.isOpen token

def advanceSeparator (reading : Reading T σ) (token : Token T σ) :
    Option (List (Token T σ) × Reading T σ) :=
  match reading.current, reading.kept notOpen with
  | some p, .call name opening done :: rest =>
      let arg := plugAll (reading.freed notOpen) p
      some (stackOf (reading.freed notOpen),
        { reading with
          slots := .call name opening (some (withArgument done arg, token)) :: rest
          current := none })
  | _, _ => none

def counted (name : Token T σ) (count : Nat) : Token T σ := { name with argc := some count }

def advanceClose (reading : Reading T σ) (token : Token T σ) :
    Option (List (Token T σ) × Reading T σ) :=
  match reading.current, reading.kept notOpen with
  | some p, .call name opening done :: rest =>
      let args := withArgument done (plugAll (reading.freed notOpen) p)
      some (stackOf (reading.freed notOpen) ++ [counted name (argumentCount args)],
        { reading with slots := rest, current := some (.call name opening args token) })
  | some p, .group opening :: rest =>
      let inner := plugAll (reading.freed notOpen) p
      some (stackOf (reading.freed notOpen),
        { reading with slots := rest, current := some (.group opening inner token) })
  | none, .call name opening none :: rest =>
      if reading.freed notOpen = [] then
        some ([counted name 0],
          { reading with slots := rest, current := some (.emptyCall name opening token) })
      else
        none
  | _, _ => none

def advance (reading : Reading T σ) (token : Token T σ) :
    Option (List (Token T σ) × Reading T σ) :=
  match reading.pending, token.role with
  | some name, .openParen =>
      some ([], { reading with slots := .call name token none :: reading.slots, pending := none })
  | some _, _ => none
  | none, .operand => some ([token], { reading.drop with current := some (.operand token) })
  | none, .function => some ([], { reading.drop with pending := some token })
  | none, .openParen => some ([], { reading.drop with slots := .group token :: reading.slots })
  | none, .leftOperator | none, .rightOperator => reading.advanceOperator token
  | none, .separator => reading.advanceSeparator token
  | none, .closeParen => reading.advanceClose token

def run (reading : Reading T σ) : List (Token T σ) → Option (Reading T σ)
  | [] => some reading
  | token :: rest => (reading.advance token).bind fun next => next.2.run rest

def result? (reading : Reading T σ) : Option (Phrase T σ) :=
  match reading.pending, reading.current, reading.lost, reading.kept notOpen with
  | none, some p, 0, [] => some (plugAll (reading.freed notOpen) p)
  | _, _, _, _ => none

def tokens (reading : Reading T σ) : List (Token T σ) :=
  reading.slots.reverse.flatMap Slot.tokens ++
    (reading.pending.toList ++ (reading.current.map Phrase.tokens).getD [])

end Reading

def needOf : List (Slot T σ) → Nat
  | [] => 0
  | slot :: _ => slot.need

def SlotsFit : List (Slot T σ) → Prop
  | [] => True
  | slot :: rest => slot.Fits ∧ needOf rest ≤ slot.rank ∧ SlotsFit rest

structure Reading.Fits (reading : Reading T σ) : Prop where
  slots : SlotsFit reading.slots
  current : ∀ p, reading.current = some p → p.Fits ∧ p.rank = primary
  pending : ∀ name, reading.pending = some name → IsFunction name ∧ reading.current = none
  idle : reading.slots = [] → reading.pending = none → reading.current = none → reading.lost = 0

theorem binary_level (operator : Token T σ) (binary : IsBinary operator) :
    (operator.role = .leftOperator ∧ operator.form.precedence ≤ 20) ∨
      (operator.role = .rightOperator ∧ operator.form.precedence = 30) := by
  have level := binary.level
  simp only [levels, List.mem_cons, Prod.mk.injEq, List.not_mem_nil, or_false] at level
  rcases level with h | h | h | h | h
  all_goals simp [h.1, h.2]

theorem left_need_bound (operator : Token T σ) (binary : IsBinary operator) :
    leftNeed operator ≤ primary := by
  rcases binary_level operator binary with ⟨role, level⟩ | ⟨role, level⟩
  · simp only [leftNeed, role, reduceCtorEq, if_false, primary]
    omega
  · simp [leftNeed, role, primary, level]

theorem need_bound (slot : Slot T σ) (fits : slot.Fits) : slot.need ≤ primary := by
  cases slot with
  | group _ => exact Nat.zero_le _
  | call _ _ _ => exact Nat.zero_le _
  | before operator => simp [Slot.need, unaryPrecedence, primary]
  | between left operator =>
      rcases binary_level operator fits.1 with ⟨role, level⟩ | ⟨role, level⟩
      · simp only [Slot.need, rightNeed, role, reduceCtorEq, if_false, primary]
        omega
      · simp [Slot.need, rightNeed, role, primary, level]

theorem need_of_bound (slots : List (Slot T σ)) (fits : SlotsFit slots) : needOf slots ≤ primary := by
  cases slots with
  | nil => exact Nat.zero_le _
  | cons slot rest => exact need_bound slot fits.1

theorem freed_waits (free : Token T σ → Bool) (slot : Slot T σ) (freed : slot.freed free = true) :
    slot.waiting?.isSome = true := by
  cases slot <;> simp_all [Slot.freed, Slot.waiting?]

theorem plug_fits (slot : Slot T σ) (p : Phrase T σ) (waits : slot.waiting?.isSome = true)
    (slotFits : slot.Fits) (fits : p.Fits) (enough : slot.need ≤ p.rank) :
    (slot.plug p).Fits ∧ (slot.plug p).rank = slot.rank := by
  cases slot with
  | group _ => simp [Slot.waiting?] at waits
  | call _ _ _ => simp [Slot.waiting?] at waits
  | before operator => exact ⟨⟨slotFits, enough, fits⟩, rfl⟩
  | between left operator => exact ⟨⟨slotFits.1, slotFits.2.1, enough, slotFits.2.2, fits⟩, rfl⟩

theorem plug_all_fits (free : Token T σ → Bool) (slots : List (Slot T σ)) (p : Phrase T σ)
    (slotsFit : SlotsFit slots) (fits : p.Fits) (enough : needOf slots ≤ p.rank) :
    let q := plugAll (slots.takeWhile (Slot.freed free)) p
    let rest := slots.dropWhile (Slot.freed free)
    q.Fits ∧ needOf rest ≤ q.rank ∧ SlotsFit rest := by
  induction slots generalizing p with
  | nil => exact ⟨fits, enough, slotsFit⟩
  | cons slot rest ih =>
      by_cases freed : slot.freed free = true
      · have plugged := plug_fits slot p (freed_waits free slot freed) slotsFit.1 fits enough
        rw [List.takeWhile_cons_of_pos freed, List.dropWhile_cons_of_pos freed]
        exact ih (slot.plug p) slotsFit.2.2 plugged.1 (plugged.2 ▸ slotsFit.2.1)
      · rw [List.takeWhile_cons_of_neg freed, List.dropWhile_cons_of_neg freed]
        exact ⟨fits, enough, slotsFit⟩

theorem released_rank (token : Token T σ) (slot : Slot T σ) (fits : slot.Fits)
    (freed : slot.freed (Order.releases token) = true) : leftNeed token ≤ slot.rank := by
  cases slot with
  | group _ => simp [Slot.freed, Slot.waiting?] at freed
  | call _ _ _ => simp [Slot.freed, Slot.waiting?] at freed
  | before operator =>
      simp only [Slot.freed, Slot.waiting?, Option.any_some, Order.releases, Bool.and_eq_true] at freed
      have level := fits.level
      have bound := freed.2
      by_cases right : token.role = .rightOperator <;>
        simp [leftNeed, Slot.rank, right, level] at bound ⊢ <;> omega
  | between left operator =>
      simp only [Slot.freed, Slot.waiting?, Option.any_some, Order.releases, Bool.and_eq_true] at freed
      have bound := freed.2
      by_cases right : token.role = .rightOperator <;>
        simp [leftNeed, Slot.rank, right] at bound ⊢ <;> omega

theorem kept_need (token : Token T σ) (binary : IsBinary token) (slot : Slot T σ) (fits : slot.Fits)
    (kept : ¬ slot.freed (Order.releases token) = true) : slot.need ≤ token.form.precedence := by
  have incoming := binary_level token binary
  cases slot with
  | group _ => exact Nat.zero_le _
  | call _ _ _ => exact Nat.zero_le _
  | before operator =>
      have waits : operator.lone.role.isOperator = true := by
        have alone := fits.alone
        simp only [Form.isPrefix, Bool.and_eq_true] at alone
        exact alone.1
      have level := fits.level
      simp only [Slot.freed, Slot.waiting?, Option.any_some, Order.releases, waits, Bool.true_and] at kept
      rcases incoming with h | h <;> simp [h.1, level, unaryPrecedence] at kept <;> omega
  | between left operator =>
      have waiting := binary_level operator fits.1
      have waits : operator.role.isOperator = true := by
        rcases waiting with h | h <;> simp [h.1, Role.isOperator]
      simp only [Slot.freed, Slot.waiting?, Option.any_some, Order.releases, waits, Bool.true_and] at kept
      unfold Slot.need rightNeed
      rcases incoming with h | h <;> rcases waiting with w | w <;> simp [h.1, w.1] at kept ⊢ <;> omega

theorem plug_all_rank (token : Token T σ) (slots : List (Slot T σ)) (p : Phrase T σ)
    (slotsFit : SlotsFit slots) (fits : p.Fits) (needs : needOf slots ≤ p.rank)
    (enough : leftNeed token ≤ p.rank) :
    leftNeed token ≤ (plugAll (slots.takeWhile (Slot.freed (Order.releases token))) p).rank := by
  induction slots generalizing p with
  | nil => exact enough
  | cons slot rest ih =>
      by_cases freed : slot.freed (Order.releases token) = true
      · have plugged := plug_fits slot p (freed_waits _ slot freed) slotsFit.1 fits needs
        rw [List.takeWhile_cons_of_pos freed]
        exact ih (slot.plug p) slotsFit.2.2 plugged.1 (plugged.2 ▸ slotsFit.2.1)
          (plugged.2 ▸ released_rank token slot slotsFit.1 freed)
      · rw [List.takeWhile_cons_of_neg freed]
        exact enough

theorem kept_need_of (token : Token T σ) (binary : IsBinary token) (slots : List (Slot T σ))
    (fits : SlotsFit (slots.dropWhile (Slot.freed (Order.releases token)))) :
    needOf (slots.dropWhile (Slot.freed (Order.releases token))) ≤ token.form.precedence := by
  generalize rest : slots.dropWhile (Slot.freed (Order.releases token)) = kept at fits
  cases kept with
  | nil => exact Nat.zero_le _
  | cons slot below =>
      apply kept_need token binary slot fits.1
      have first := List.head?_dropWhile_not (Slot.freed (Order.releases token)) slots
      rw [rest] at first
      simpa using first

theorem with_argument_fits (name opening : Token T σ) (done : Option (Arguments T σ × Token T σ))
    (arg : Phrase T σ) (slotFits : (Slot.call name opening done).Fits) (fits : arg.Fits) :
    IsFunction name ∧ opening.role = .openParen ∧ ArgumentsFit (withArgument done arg) := by
  cases done with
  | none => exact ⟨slotFits.1, slotFits.2, fits⟩
  | some pair => exact ⟨slotFits.1, slotFits.2.1, slotFits.2.2.1, slotFits.2.2.2, fits⟩

theorem start_fits : (Reading.start : Reading T σ).Fits where
  slots := trivial
  current := by simp [Reading.start]
  pending := by simp [Reading.start]
  idle _ _ _ := rfl

theorem phrase_needed (reading : Reading T σ) (fits : reading.Fits) (p : Phrase T σ)
    (present : reading.current = some p) : needOf reading.slots ≤ p.rank := by
  rw [(fits.current p present).2]
  exact need_of_bound reading.slots fits.slots

theorem settled_fits (free : Token T σ → Bool) (reading : Reading T σ) (fits : reading.Fits)
    (p : Phrase T σ) (present : reading.current = some p) :
    (plugAll (reading.freed free) p).Fits ∧ SlotsFit (reading.kept free) := by
  obtain ⟨phraseFits, _, keptFit⟩ := plug_all_fits free reading.slots p fits.slots
    (fits.current p present).1 (phrase_needed reading fits p present)
  exact ⟨phraseFits, keptFit⟩

theorem need_of_operand (slots : List (Slot T σ)) (fits : SlotsFit slots) :
    needOf slots ≤ unaryPrecedence := by
  cases slots with
  | nil => exact Nat.zero_le _
  | cons slot rest =>
      cases slot with
      | group _ => exact Nat.zero_le _
      | call _ _ _ => exact Nat.zero_le _
      | before _ => exact Nat.le_refl _
      | between left waiting =>
          rcases binary_level waiting fits.1.1 with ⟨role, level⟩ | ⟨role, level⟩
          · simp only [needOf, Slot.need, rightNeed, role, reduceCtorEq, if_false, unaryPrecedence]
            omega
          · simp [needOf, Slot.need, rightNeed, role, unaryPrecedence, level]

theorem advance_operator_fits (reading next : Reading T σ) (token : Token T σ) (out : List (Token T σ))
    (fits : reading.Fits) (proper : Proper token) (operator : token.role.isOperator = true)
    (idle : reading.pending = none) (taken : reading.advanceOperator token = some (out, next)) :
    next.Fits := by
  unfold Reading.advanceOperator at taken
  cases present : reading.current with
  | none =>
      simp only [present, Option.ite_none_right_eq_some, Option.some.injEq, Prod.mk.injEq] at taken
      obtain ⟨alone, -, rfl⟩ := taken
      have slotsFit : SlotsFit (.before token :: reading.slots) :=
        ⟨proper.isPrefix operator alone, need_of_operand reading.slots fits.slots, fits.slots⟩
      exact ⟨slotsFit, by simp, by simp [idle], by simp⟩
  | some p =>
      simp only [present, Option.ite_none_left_eq_some, Option.some.injEq, Prod.mk.injEq] at taken
      obtain ⟨binds, -, rfl⟩ := taken
      have binary := proper.isBinary operator (by simpa using binds)
      obtain ⟨leftFits, keptFit⟩ := settled_fits (Order.releases token) reading fits p present
      obtain ⟨phraseFits, top⟩ := fits.current p present
      have enough : leftNeed token ≤ (plugAll (reading.freed (Order.releases token)) p).rank := by
        apply plug_all_rank token reading.slots p fits.slots phraseFits (phrase_needed reading fits p present)
        rw [top]
        exact left_need_bound token binary
      have below := kept_need_of token binary reading.slots keptFit
      exact ⟨⟨⟨binary, enough, leftFits⟩, below, keptFit⟩, by simp, by simp [idle], by simp⟩

theorem advance_separator_fits (reading next : Reading T σ) (token : Token T σ) (out : List (Token T σ))
    (fits : reading.Fits) (separator : token.role = .separator) (idle : reading.pending = none)
    (taken : reading.advanceSeparator token = some (out, next)) : next.Fits := by
  unfold Reading.advanceSeparator at taken
  split at taken
  · rename_i p name opening done rest present kept
    simp only [Option.some.injEq, Prod.mk.injEq] at taken
    obtain ⟨-, rfl⟩ := taken
    obtain ⟨argFits, keptFit⟩ := settled_fits Reading.notOpen reading fits p present
    rw [kept] at keptFit
    obtain ⟨nameFits, openingFits, argsFit⟩ :=
      with_argument_fits name opening done _ keptFit.1 argFits
    exact ⟨⟨⟨nameFits, openingFits, argsFit, separator⟩, keptFit.2.1, keptFit.2.2⟩, by simp,
      by simp [idle], by simp⟩
  · exact absurd taken (by simp)

theorem advance_close_fits (reading next : Reading T σ) (token : Token T σ) (out : List (Token T σ))
    (fits : reading.Fits) (closing : token.role = .closeParen) (idle : reading.pending = none)
    (taken : reading.advanceClose token = some (out, next)) : next.Fits := by
  unfold Reading.advanceClose at taken
  split at taken
  · rename_i p name opening done rest present kept
    simp only [Option.some.injEq, Prod.mk.injEq] at taken
    obtain ⟨-, rfl⟩ := taken
    obtain ⟨argFits, keptFit⟩ := settled_fits Reading.notOpen reading fits p present
    rw [kept] at keptFit
    obtain ⟨nameFits, openingFits, argsFit⟩ :=
      with_argument_fits name opening done _ keptFit.1 argFits
    refine ⟨keptFit.2.2, ?_, by simp [idle], by simp⟩
    rintro q ⟨⟩
    exact ⟨⟨nameFits, openingFits, argsFit, closing⟩, rfl⟩
  · rename_i p opening rest present kept
    simp only [Option.some.injEq, Prod.mk.injEq] at taken
    obtain ⟨-, rfl⟩ := taken
    obtain ⟨innerFits, keptFit⟩ := settled_fits Reading.notOpen reading fits p present
    rw [kept] at keptFit
    refine ⟨keptFit.2.2, ?_, by simp [idle], by simp⟩
    rintro q ⟨⟩
    exact ⟨⟨keptFit.1, innerFits, closing⟩, rfl⟩
  · rename_i name opening rest absent kept
    simp only [Option.ite_none_right_eq_some, Option.some.injEq, Prod.mk.injEq] at taken
    obtain ⟨blank, -, rfl⟩ := taken
    have slotsFit := fits.slots
    rw [← reading.freed_kept Reading.notOpen, blank, kept, List.nil_append] at slotsFit
    refine ⟨slotsFit.2.2, ?_, by simp [idle], by simp⟩
    rintro q ⟨⟩
    exact ⟨⟨slotsFit.1.1, slotsFit.1.2, closing⟩, rfl⟩
  · exact absurd taken (by simp)

theorem advance_fits (reading next : Reading T σ) (token : Token T σ) (out : List (Token T σ))
    (fits : reading.Fits) (proper : Proper token) (taken : reading.advance token = some (out, next)) :
    next.Fits := by
  unfold Reading.advance at taken
  split at taken
  case h_1 name pending opening =>
    simp only [Option.some.injEq, Prod.mk.injEq] at taken
    obtain ⟨-, rfl⟩ := taken
    obtain ⟨function, absent⟩ := fits.pending name pending
    have slotsFit : SlotsFit (.call name token none :: reading.slots) :=
      ⟨⟨function, opening⟩, need_of_bound reading.slots fits.slots, fits.slots⟩
    exact ⟨slotsFit, by simp [absent], by simp, by simp⟩
  case h_2 => exact absurd taken (by simp)
  case h_3 idle operand =>
    simp only [Option.some.injEq, Prod.mk.injEq] at taken
    obtain ⟨-, rfl⟩ := taken
    refine ⟨fits.slots, ?_, by simp [Reading.drop, idle], by simp⟩
    rintro q ⟨⟩
    exact ⟨operand, rfl⟩
  case h_4 idle function =>
    simp only [Option.some.injEq, Prod.mk.injEq] at taken
    obtain ⟨-, rfl⟩ := taken
    refine ⟨fits.slots, by simp [Reading.drop], ?_, by simp⟩
    rintro name ⟨⟩
    exact ⟨proper.isFunction function, rfl⟩
  case h_5 idle opening =>
    simp only [Option.some.injEq, Prod.mk.injEq] at taken
    obtain ⟨-, rfl⟩ := taken
    have slotsFit : SlotsFit (.group token :: reading.slots) :=
      ⟨opening, need_of_bound reading.slots fits.slots, fits.slots⟩
    exact ⟨slotsFit, by simp [Reading.drop], by simp [Reading.drop, idle], by simp⟩
  case h_6 idle role =>
    exact advance_operator_fits reading next token out fits proper (by simp [role, Role.isOperator]) idle taken
  case h_7 idle role =>
    exact advance_operator_fits reading next token out fits proper (by simp [role, Role.isOperator]) idle taken
  case h_8 idle role => exact advance_separator_fits reading next token out fits role idle taken
  case h_9 idle role => exact advance_close_fits reading next token out fits role idle taken

theorem run_fits (tokens : List (Token T σ)) (reading last : Reading T σ) (fits : reading.Fits)
    (proper : ∀ token ∈ tokens, Proper token) (ran : reading.run tokens = some last) : last.Fits := by
  induction tokens generalizing reading with
  | nil =>
      obtain rfl := Option.some.inj ran
      exact fits
  | cons token rest ih =>
      obtain ⟨⟨out, next⟩, taken, later⟩ := Option.bind_eq_some_iff.mp ran
      exact ih next (advance_fits reading next token out fits (proper token (by simp)) taken)
        (fun token member => proper token (by simp [member])) later

theorem result_fits (reading : Reading T σ) (fits : reading.Fits) (p : Phrase T σ)
    (result : reading.result? = some p) : p.Fits := by
  unfold Reading.result? at result
  split at result
  · rename_i q _ present _ _
    obtain rfl := Option.some.inj result
    exact (settled_fits Reading.notOpen reading fits q present).1
  · exact absurd result (by simp)

theorem plug_all_tokens (slots : List (Slot T σ)) (p : Phrase T σ)
    (waits : ∀ slot ∈ slots, slot.waiting?.isSome = true) :
    (plugAll slots p).tokens = slots.reverse.flatMap Slot.tokens ++ p.tokens := by
  induction slots generalizing p with
  | nil => rfl
  | cons slot rest ih =>
      have plugged : (slot.plug p).tokens = slot.tokens ++ p.tokens := by
        have first := waits slot (by simp)
        cases slot with
        | group _ => simp [Slot.waiting?] at first
        | call _ _ _ => simp [Slot.waiting?] at first
        | before operator => simp [Slot.plug, Slot.tokens, Phrase.tokens]
        | between left operator => simp [Slot.plug, Slot.tokens, Phrase.tokens]
      rw [plugAll, List.foldl_cons, ← plugAll, ih _ fun slot member => waits slot (by simp [member]), plugged]
      simp

theorem freed_all_wait (free : Token T σ → Bool) (reading : Reading T σ) :
    ∀ slot ∈ reading.freed free, slot.waiting?.isSome = true := by
  intro slot member
  exact freed_waits free slot (List.all_eq_true.mp List.all_takeWhile slot member)

theorem settled_tokens (free : Token T σ → Bool) (reading : Reading T σ) (p : Phrase T σ) :
    (reading.kept free).reverse.flatMap Slot.tokens ++ (plugAll (reading.freed free) p).tokens =
      reading.slots.reverse.flatMap Slot.tokens ++ p.tokens := by
  rw [plug_all_tokens _ _ (freed_all_wait free reading), ← reading.freed_kept free]
  simp

theorem call_tokens (name opening closing : Token T σ) (done : Option (Arguments T σ × Token T σ))
    (arg : Phrase T σ) :
    (Phrase.call name opening (withArgument done arg) closing).tokens =
      (Slot.call name opening done).tokens ++ arg.tokens ++ [closing] := by
  cases done with
  | none => simp [withArgument, Phrase.tokens, argumentTokens, Slot.tokens]
  | some pair => simp [withArgument, Phrase.tokens, argumentTokens, Slot.tokens]

theorem slot_call_tokens (name opening comma : Token T σ) (done : Option (Arguments T σ × Token T σ))
    (arg : Phrase T σ) :
    (Slot.call name opening (some (withArgument done arg, comma))).tokens =
      (Slot.call name opening done).tokens ++ arg.tokens ++ [comma] := by
  cases done with
  | none => simp [withArgument, argumentTokens, Slot.tokens]
  | some pair => simp [withArgument, argumentTokens, Slot.tokens]

theorem advance_operator_tokens (reading next : Reading T σ) (token : Token T σ) (out : List (Token T σ))
    (idle : reading.pending = none) (taken : reading.advanceOperator token = some (out, next)) :
    next.tokens = reading.tokens ++ [token] ∧ next.lost = reading.lost := by
  unfold Reading.advanceOperator at taken
  cases present : reading.current with
  | none =>
      simp only [present, Option.ite_none_right_eq_some, Option.some.injEq, Prod.mk.injEq] at taken
      obtain ⟨-, -, rfl⟩ := taken
      simp [Reading.tokens, idle, present, Slot.tokens]
  | some p =>
      simp only [present, Option.ite_none_left_eq_some, Option.some.injEq, Prod.mk.injEq] at taken
      obtain ⟨-, -, rfl⟩ := taken
      have moved := settled_tokens (Order.releases token) reading p
      simp [Reading.tokens, idle, present, Slot.tokens, ← moved]

theorem advance_separator_tokens (reading next : Reading T σ) (token : Token T σ) (out : List (Token T σ))
    (idle : reading.pending = none) (taken : reading.advanceSeparator token = some (out, next)) :
    next.tokens = reading.tokens ++ [token] ∧ next.lost = reading.lost := by
  unfold Reading.advanceSeparator at taken
  split at taken
  · rename_i p name opening done rest present kept
    simp only [Option.some.injEq, Prod.mk.injEq] at taken
    obtain ⟨-, rfl⟩ := taken
    have moved := settled_tokens Reading.notOpen reading p
    rw [kept] at moved
    simp [Reading.tokens, idle, present, slot_call_tokens, ← moved]
  · exact absurd taken (by simp)

theorem advance_close_tokens (reading next : Reading T σ) (token : Token T σ) (out : List (Token T σ))
    (idle : reading.pending = none) (taken : reading.advanceClose token = some (out, next)) :
    next.tokens = reading.tokens ++ [token] ∧ next.lost = reading.lost := by
  unfold Reading.advanceClose at taken
  split at taken
  · rename_i p name opening done rest present kept
    simp only [Option.some.injEq, Prod.mk.injEq] at taken
    obtain ⟨-, rfl⟩ := taken
    have moved := settled_tokens Reading.notOpen reading p
    rw [kept] at moved
    simp [Reading.tokens, idle, present, call_tokens, ← moved]
  · rename_i p opening rest present kept
    simp only [Option.some.injEq, Prod.mk.injEq] at taken
    obtain ⟨-, rfl⟩ := taken
    have moved := settled_tokens Reading.notOpen reading p
    rw [kept] at moved
    simp [Reading.tokens, idle, present, Phrase.tokens, Slot.tokens, ← moved]
  · rename_i name opening rest absent kept
    simp only [Option.ite_none_right_eq_some, Option.some.injEq, Prod.mk.injEq] at taken
    obtain ⟨blank, -, rfl⟩ := taken
    have slots := reading.freed_kept Reading.notOpen
    rw [blank, kept, List.nil_append] at slots
    simp [Reading.tokens, idle, absent, Phrase.tokens, Slot.tokens, ← slots]
  · exact absurd taken (by simp)

-- No complete phrase is held while a function waits for its parenthesis.
def Reading.Paused (reading : Reading T σ) : Prop := ∀ name, reading.pending = some name → reading.current = none

theorem advance_operator_bare (reading next : Reading T σ) (token : Token T σ) (out : List (Token T σ))
    (taken : reading.advanceOperator token = some (out, next)) :
    next.current = none ∧ next.pending = reading.pending := by
  unfold Reading.advanceOperator at taken
  split at taken <;> split at taken <;> simp only [Option.some.injEq, Prod.mk.injEq, reduceCtorEq] at taken <;>
    obtain ⟨-, rfl⟩ := taken
  · exact ⟨‹_›, rfl⟩
  · exact ⟨rfl, rfl⟩

theorem advance_separator_bare (reading next : Reading T σ) (token : Token T σ) (out : List (Token T σ))
    (taken : reading.advanceSeparator token = some (out, next)) :
    next.current = none ∧ next.pending = reading.pending := by
  unfold Reading.advanceSeparator at taken
  split at taken <;> simp only [Option.some.injEq, Prod.mk.injEq, reduceCtorEq] at taken
  obtain ⟨-, rfl⟩ := taken
  exact ⟨rfl, rfl⟩

theorem advance_close_complete (reading next : Reading T σ) (token : Token T σ) (out : List (Token T σ))
    (taken : reading.advanceClose token = some (out, next)) :
    next.current.isSome = true ∧ next.pending = reading.pending := by
  unfold Reading.advanceClose at taken
  split at taken
  case h_3 =>
    simp only [Option.ite_none_right_eq_some, Option.some.injEq, Prod.mk.injEq] at taken
    obtain ⟨-, -, rfl⟩ := taken
    exact ⟨rfl, rfl⟩
  all_goals simp only [Option.some.injEq, Prod.mk.injEq, reduceCtorEq] at taken
  all_goals
    obtain ⟨-, rfl⟩ := taken
    exact ⟨rfl, rfl⟩

theorem advance_paused (reading next : Reading T σ) (token : Token T σ) (out : List (Token T σ))
    (taken : reading.advance token = some (out, next)) : next.Paused := by
  have settled (idle : next.pending = none) : next.Paused := fun name waits => by simp [idle] at waits
  unfold Reading.advance at taken
  split at taken
  case h_1 name pending _ =>
    simp only [Option.some.injEq, Prod.mk.injEq] at taken
    exact settled (taken.2 ▸ rfl)
  case h_2 => exact absurd taken (by simp)
  case h_3 idle _ =>
    simp only [Option.some.injEq, Prod.mk.injEq] at taken
    exact settled (taken.2 ▸ idle)
  case h_4 =>
    simp only [Option.some.injEq, Prod.mk.injEq] at taken
    exact taken.2 ▸ fun _ _ => rfl
  case h_5 idle _ =>
    simp only [Option.some.injEq, Prod.mk.injEq] at taken
    exact settled (taken.2 ▸ idle)
  case h_6 idle _ => exact settled ((advance_operator_bare reading next token out taken).2.trans idle)
  case h_7 idle _ => exact settled ((advance_operator_bare reading next token out taken).2.trans idle)
  case h_8 idle _ => exact settled ((advance_separator_bare reading next token out taken).2.trans idle)
  case h_9 idle _ => exact settled ((advance_close_complete reading next token out taken).2.trans idle)

theorem advance_tokens (reading next : Reading T σ) (token : Token T σ) (out : List (Token T σ))
    (paused : reading.Paused) (taken : reading.advance token = some (out, next)) :
    ∃ base, (base = reading ∨ base = reading.drop) ∧
      next.tokens = base.tokens ++ [token] ∧ next.lost = base.lost := by
  unfold Reading.advance at taken
  split at taken
  case h_1 name pending opening =>
    simp only [Option.some.injEq, Prod.mk.injEq] at taken
    obtain ⟨-, rfl⟩ := taken
    have absent := paused name pending
    exact ⟨reading, .inl rfl, by simp [Reading.tokens, pending, absent, Slot.tokens], rfl⟩
  case h_2 => exact absurd taken (by simp)
  case h_3 idle _ =>
    simp only [Option.some.injEq, Prod.mk.injEq] at taken
    obtain ⟨-, rfl⟩ := taken
    exact ⟨reading.drop, .inr rfl, by simp [Reading.tokens, Reading.drop, idle, Phrase.tokens], rfl⟩
  case h_4 idle _ =>
    simp only [Option.some.injEq, Prod.mk.injEq] at taken
    obtain ⟨-, rfl⟩ := taken
    exact ⟨reading.drop, .inr rfl, by simp [Reading.tokens, Reading.drop, idle], rfl⟩
  case h_5 idle _ =>
    simp only [Option.some.injEq, Prod.mk.injEq] at taken
    obtain ⟨-, rfl⟩ := taken
    exact ⟨reading.drop, .inr rfl, by simp [Reading.tokens, Reading.drop, idle, Slot.tokens], rfl⟩
  case h_6 idle _ => exact ⟨reading, .inl rfl, advance_operator_tokens reading next token out idle taken⟩
  case h_7 idle _ => exact ⟨reading, .inl rfl, advance_operator_tokens reading next token out idle taken⟩
  case h_8 idle _ => exact ⟨reading, .inl rfl, advance_separator_tokens reading next token out idle taken⟩
  case h_9 idle _ => exact ⟨reading, .inl rfl, advance_close_tokens reading next token out idle taken⟩

theorem drop_same (reading : Reading T σ) (same : reading.drop.lost = reading.lost) :
    reading.drop = reading := by
  cases reading with
  | mk slots current pending lost => cases current <;> simp_all [Reading.drop]

theorem advance_lost (reading next : Reading T σ) (token : Token T σ) (out : List (Token T σ))
    (paused : reading.Paused) (taken : reading.advance token = some (out, next)) :
    reading.lost ≤ next.lost := by
  obtain ⟨base, origin, -, lost⟩ := advance_tokens reading next token out paused taken
  rcases origin with rfl | rfl
  · exact Nat.le_of_eq lost.symm
  · exact lost ▸ Nat.le_add_right _ _

theorem run_tokens (tokens : List (Token T σ)) (reading last : Reading T σ) (paused : reading.Paused)
    (ran : reading.run tokens = some last) :
    reading.lost ≤ last.lost ∧ (last.lost = 0 → last.tokens = reading.tokens ++ tokens) := by
  induction tokens generalizing reading with
  | nil =>
      obtain rfl := Option.some.inj ran
      exact ⟨Nat.le_refl _, by simp⟩
  | cons token rest ih =>
      obtain ⟨⟨out, next⟩, taken, later⟩ := Option.bind_eq_some_iff.mp ran
      obtain ⟨more, written⟩ := ih next (advance_paused reading next token out taken) later
      have grown := advance_lost reading next token out paused taken
      refine ⟨Nat.le_trans grown more, fun nothing => ?_⟩
      obtain ⟨base, origin, step, lost⟩ := advance_tokens reading next token out paused taken
      have same : base = reading := by
        rcases origin with rfl | rfl
        · rfl
        · exact drop_same reading (by omega)
      rw [written nothing, step, same]
      simp

theorem start_paused : (Reading.start : Reading T σ).Paused := fun _ _ => rfl

theorem result_tokens (reading : Reading T σ) (p : Phrase T σ) (result : reading.result? = some p) :
    reading.lost = 0 ∧ p.tokens = reading.tokens := by
  unfold Reading.result? at result
  split at result
  · rename_i q idle present nothing kept
    obtain rfl := Option.some.inj result
    have moved := settled_tokens Reading.notOpen reading q
    rw [kept] at moved
    exact ⟨nothing, by simpa [Reading.tokens, idle, present] using moved⟩
  · exact absurd result (by simp)

theorem read_is_sentence (tokens : List (Token T σ)) (last : Reading T σ) (p : Phrase T σ)
    (proper : ∀ token ∈ tokens, Proper token) (ran : Reading.start.run tokens = some last)
    (result : last.result? = some p) : p.Fits ∧ p.tokens = tokens := by
  have fits := run_fits tokens .start last start_fits proper ran
  obtain ⟨nothing, written⟩ := result_tokens last p result
  have read := (run_tokens tokens .start last start_paused ran).2 nothing
  exact ⟨result_fits last fits p result, by simpa [Reading.tokens, Reading.start] using written.trans read⟩

end Formula.Phrase
