import Formula.Proofs.Phrase.Spine
import Mathlib.Data.List.TakeWhile

set_option autoImplicit false

namespace Formula.Phrase

variable {T σ : Type}

def separators : Option (Arguments T σ × Token T σ) → Nat
  | none => 0
  | some (args, _) => argumentCount args

def frames (blank : Bool) : List (Slot T σ) → List Frame
  | [] => []
  | .group _ :: rest => ⟨false, 0, blank⟩ :: frames false rest
  | .call _ _ done :: rest => ⟨true, separators done, blank && done.isNone⟩ :: frames false rest
  | .before _ :: rest => frames false rest
  | .between _ _ :: rest => frames false rest

def lastRole : Phrase T σ → Role
  | .operand _ | .before _ _ | .between _ _ _ => .operand
  | .group _ _ _ | .emptyCall _ _ _ | .call _ _ _ _ => .closeParen

def openRole : List (Slot T σ) → Option Role
  | [] => none
  | .group _ :: _ => some .openParen
  | .call _ _ none :: _ => some .openParen
  | .call _ _ (some _) :: _ => some .separator
  | .before operator :: _ => some operator.lone.role
  | .between _ operator :: _ => some operator.role

namespace Reading

def previous (reading : Reading T σ) : Option Role :=
  match reading.pending, reading.current with
  | some _, _ => some .function
  | none, some p => some (lastRole p)
  | none, none => openRole reading.slots

def order (reading : Reading T σ) : Order T σ :=
  ⟨reading.pending.toList ++ stackOf reading.slots,
    frames (reading.current.isNone && reading.pending.isNone) reading.slots,
    reading.previous, reading.pending.map Token.span⟩

end Reading

theorem mark_frames (blank : Bool) (slots : List (Slot T σ)) :
    Order.markContent (frames blank slots) = frames false slots := by
  cases slots with
  | nil => rfl
  | cons slot rest =>
      cases slot with
      | group _ => rfl
      | call _ _ _ => simp [frames, Order.markContent]
      | before _ => exact mark_frames false rest
      | between _ _ => exact mark_frames false rest

theorem frames_kept (free : Token T σ → Bool) (slots : List (Slot T σ)) :
    frames false (slots.dropWhile (Slot.freed free)) = frames false slots := by
  induction slots with
  | nil => rfl
  | cons slot rest ih =>
      by_cases freed : slot.freed free = true
      · rw [List.dropWhile_cons_of_pos freed, ih]
        have waits := freed_waits free slot freed
        cases slot <;> simp_all [Slot.waiting?, frames]
      · rw [List.dropWhile_cons_of_neg freed]

theorem stack_freed (free : Token T σ → Bool) (slots : List (Slot T σ)) (formed : ∀ slot ∈ slots, slot.Formed)
    (closed : ∀ token : Token T σ, token.role = .openParen → free token = false) :
    (Reading.stackOf slots).takeWhile free = Reading.stackOf (slots.takeWhile (Slot.freed free)) ∧
      (Reading.stackOf slots).dropWhile free = Reading.stackOf (slots.dropWhile (Slot.freed free)) := by
  induction slots with
  | nil => exact ⟨rfl, rfl⟩
  | cons slot rest ih =>
      rw [List.forall_mem_cons] at formed
      have inner := ih formed.2
      simp only [Reading.stackOf, List.flatMap_cons] at inner ⊢
      cases slot with
      | group opening => simp [Slot.stack, Slot.freed, Slot.waiting?, closed opening formed.1]
      | call name opening done =>
          have role := (call_formed name opening done formed.1).2
          simp [Slot.stack, Slot.freed, Slot.waiting?, closed opening role]
      | before operator =>
          by_cases freed : free operator.lone = true <;>
            simp [Slot.stack, Slot.freed, Slot.waiting?, freed, inner]
      | between left operator =>
          by_cases freed : free operator = true <;>
            simp [Slot.stack, Slot.freed, Slot.waiting?, freed, inner]

theorem not_open_closed (token : Token T σ) (role : token.role = .openParen) :
    Reading.notOpen token = false := by
  simp [Reading.notOpen, Order.isOpen, role]

theorem releases_closed (incoming token : Token T σ) (role : token.role = .openParen) :
    Order.releases incoming token = false := by
  simp [Order.releases, role, Role.isOperator]

theorem kept_bracket (slots : List (Slot T σ)) (formed : ∀ slot ∈ slots, slot.Formed) :
    ∀ slot rest, slots.dropWhile (Slot.freed Reading.notOpen) = slot :: rest → slot.waiting? = none := by
  induction slots with
  | nil => simp
  | cons slot below ih =>
      intro first rest kept
      by_cases freed : slot.freed Reading.notOpen = true
      · rw [List.dropWhile_cons_of_pos freed] at kept
        exact ih (fun slot member => formed slot (List.mem_cons_of_mem _ member)) first rest kept
      · rw [List.dropWhile_cons_of_neg freed] at kept
        obtain rfl := (List.cons.inj kept).1
        cases waits : slot.waiting? with
        | none => rfl
        | some token => exact absurd (operator_not_open slot (by simp [waits]) (formed slot (by simp))) freed

theorem primary_previous (p : Phrase T σ) : lastRole p = .operand ∨ lastRole p = .closeParen := by
  cases p <;> simp [lastRole]

theorem open_role_expects (slots : List (Slot T σ)) (formed : ∀ slot ∈ slots, slot.Formed) :
    openRole slots ≠ some .operand ∧ openRole slots ≠ some .closeParen := by
  cases slots with
  | nil => simp [openRole]
  | cons slot rest =>
      have waits := waiting_operator slot (formed slot (by simp))
      cases slot with
      | group _ => simp [openRole]
      | call _ _ done => cases done <;> simp [openRole]
      | before operator => simpa [openRole] using operator_elsewhere operator.lone (waits operator.lone rfl)
      | between left operator => simpa [openRole] using operator_elsewhere operator (waits operator rfl)

theorem expects_operand (reading : Reading T σ) (formed : reading.Formed) (idle : reading.pending = none) :
    Order.expectsOperand reading.order = reading.current.isNone := by
  have expects := open_role_expects reading.slots formed.slots
  cases present : reading.current with
  | none =>
      simp only [Order.expectsOperand, Reading.order, Reading.previous, idle, present, Option.isNone_none]
      split <;> simp_all
  | some p =>
      rcases primary_previous p with role | role <;>
        simp [Order.expectsOperand, Reading.order, Reading.previous, idle, present, role]

def Agrees (taken : Option (List (Token T σ) × Reading T σ))
    (outcome : Except ParseError (List (Token T σ) × Order T σ)) : Prop :=
  match taken with
  | some (out, next) => outcome = .ok (out, next.order)
  | none => ∃ error, outcome = .error error

theorem placed_alone (expression : String) (state : Order T σ) (token : Token T σ)
    (lone : ∀ form, token.alone = some form → form.isPrefix = true) (expects : state.expectsOperand = true) :
    if token.lone.form.isPrefix then Order.placed expression state token = .ok token.lone
    else ∃ error, Order.placed expression state token = .error error := by
  unfold Order.placed Token.lone
  rw [if_pos expects]
  by_cases already : token.form.isPrefix = true
  · simp [already]
  · cases alone : token.alone with
    | none => simp [already]
    | some form => simp [already, lone form alone]

-- An operator that stands before its operand releases nothing of what waits for that operand.
def Reading.Spared (reading : Reading T σ) (token : Token T σ) : Prop :=
  reading.current = none → reading.pending = none → token.role.isOperator = true → token.lone.form.isPrefix = true →
    reading.slots.takeWhile (Slot.freed (Order.releases token.lone)) = []

theorem fits_spared (reading : Reading T σ) (fits : reading.Fits) (token : Token T σ) (proper : Proper token) :
    reading.Spared token := by
  intro _ _ operator alone
  have prefixed := proper.isPrefix operator alone
  have slotsFit := fits.slots
  cases slots : reading.slots with
  | nil => rfl
  | cons slot rest =>
      rw [slots] at slotsFit
      apply List.takeWhile_cons_of_neg
      have level := prefixed.level
      cases slot with
      | group _ => simp [Slot.freed, Slot.waiting?]
      | call _ _ _ => simp [Slot.freed, Slot.waiting?]
      | before operator =>
          have waiting := slotsFit.1.level
          simp [Slot.freed, Slot.waiting?, Order.releases, prefixed.grouping, level, waiting]
      | between left operator =>
          have waiting := binary_level operator slotsFit.1.1
          simp only [Slot.freed, Slot.waiting?, Option.any_some, Order.releases,
            prefixed.grouping, level, unaryPrecedence]
          rcases waiting with w | w
          · simp [w]
            omega
          · simp [w]

theorem placed_between (expression : String) (state : Order T σ) (token : Token T σ)
    (follows : state.expectsOperand = false) :
    if token.form.isPrefix then ∃ error, Order.placed expression state token = .error error
    else Order.placed expression state token = .ok token := by
  unfold Order.placed
  cases binds : token.form.isPrefix <;> simp [follows]

theorem accept_placed (expression : String) (state : Order T σ) (token waiting : Token T σ)
    (placed : Order.placed expression state token = .ok waiting) :
    Order.acceptOperator expression state token =
      .ok (state.stack.takeWhile (Order.releases waiting),
        { state with
          stack := waiting :: state.stack.dropWhile (Order.releases waiting)
          frames := Order.markContent state.frames
          previous := some waiting.role }) := by
  rw [Order.acceptOperator, placed]
  rfl

theorem accept_misplaced (expression : String) (state : Order T σ) (token : Token T σ) (error : ParseError)
    (misplaced : Order.placed expression state token = .error error) :
    Order.acceptOperator expression state token = .error error := by
  rw [Order.acceptOperator, misplaced]
  rfl

theorem order_stack (reading : Reading T σ) (idle : reading.pending = none) :
    reading.order.stack = Reading.stackOf reading.slots := by
  simp [Reading.order, idle]

theorem order_marked (reading : Reading T σ) :
    Order.markContent reading.order.frames = frames false reading.slots :=
  mark_frames _ _

theorem accept_operator (expression : String) (reading : Reading T σ) (token : Token T σ)
    (formed : reading.Formed) (lone : ∀ form, token.alone = some form → form.isPrefix = true)
    (spared : reading.Spared token) (operator : token.role.isOperator = true) (idle : reading.pending = none) :
    Agrees (reading.advanceOperator token) (Order.acceptOperator expression reading.order token) := by
  have expects := expects_operand reading formed idle
  unfold Reading.advanceOperator
  cases present : reading.current with
  | none =>
      have placed := placed_alone expression reading.order token lone (by simp [expects, present])
      by_cases alone : token.lone.form.isPrefix = true
      · rw [if_pos alone] at placed
        have nothing := spared present idle operator alone
        obtain ⟨freed, kept⟩ := stack_freed (Order.releases token.lone) reading.slots formed.slots
          (releases_closed token.lone)
        have whole := List.takeWhile_append_dropWhile (p := Slot.freed (Order.releases token.lone)) (l := reading.slots)
        rw [nothing, List.nil_append] at whole
        rw [nothing] at freed
        rw [whole] at kept
        rw [accept_placed expression reading.order token token.lone placed, order_stack reading idle, freed, kept,
          order_marked]
        simp [Agrees, alone, Reading.order, idle, present, frames, Reading.stackOf, Slot.stack, Reading.previous,
          openRole]
      · rw [if_neg alone] at placed
        obtain ⟨error, placed⟩ := placed
        rw [accept_misplaced expression reading.order token error placed]
        simp [Agrees, alone]
  | some p =>
      have placed := placed_between expression reading.order token (by simp [expects, present])
      by_cases binds : token.form.isPrefix = true
      · rw [if_pos binds] at placed
        obtain ⟨error, placed⟩ := placed
        rw [accept_misplaced expression reading.order token error placed]
        simp [Agrees, binds]
      · rw [if_neg binds] at placed
        obtain ⟨freed, kept⟩ := stack_freed (Order.releases token) reading.slots formed.slots (releases_closed token)
        have below := frames_kept (Order.releases token) reading.slots
        rw [accept_placed expression reading.order token token placed, order_stack reading idle, freed, kept,
          order_marked]
        simp [Agrees, binds, Reading.order, idle, Reading.freed, Reading.kept, frames, below,
          Reading.stackOf, Slot.stack, Reading.previous, openRole]

theorem check_after_phrase (expression : String) (reading : Reading T σ) (token : Token T σ)
    (idle : reading.pending = none) (p : Phrase T σ) (present : reading.current = some p) :
    Order.checkOperand expression reading.order token = .ok () ∧
      reading.order.previous ≠ some .openParen := by
  rcases primary_previous p with role | role <;>
    simp [Order.checkOperand, Reading.order, Reading.previous, idle, present, role]

theorem check_before_operand (expression : String) (reading : Reading T σ) (token : Token T σ)
    (formed : reading.Formed) (idle : reading.pending = none) (absent : reading.current = none) (slot : Slot T σ)
    (rest : List (Slot T σ)) (slots : reading.slots = slot :: rest) :
    (∃ error, Order.checkOperand expression reading.order token = .error error) ∨
      (reading.order.previous = some .openParen ∧
        ((∃ opening, slot = .group opening) ∨ ∃ name opening, slot = .call name opening none)) := by
  have waits := waiting_operator slot (formed.slots slot (by simp [slots]))
  cases slot with
  | group opening =>
      exact .inr ⟨by simp [Reading.order, Reading.previous, idle, absent, slots, openRole], .inl ⟨opening, rfl⟩⟩
  | call name opening done =>
      cases done with
      | none =>
          exact .inr ⟨by simp [Reading.order, Reading.previous, idle, absent, slots, openRole],
            .inr ⟨name, opening, rfl⟩⟩
      | some pair =>
          exact .inl (by
            simp [Order.checkOperand, Reading.order, Reading.previous, idle, absent, slots, openRole])
  | before operator =>
      left
      rcases operator_role operator.lone (waits operator.lone rfl) with role | role <;>
        simp [Order.checkOperand, Reading.order, Reading.previous, idle, absent, slots, openRole, role]
  | between left operator =>
      left
      rcases operator_role operator (waits operator rfl) with role | role <;>
        simp [Order.checkOperand, Reading.order, Reading.previous, idle, absent, slots, openRole, role]

theorem separator_taken (expression : String) (state : Order T σ) (token : Token T σ)
    (call : state.frames.head?.any Frame.isCall = true) (content : state.previous ≠ some .openParen)
    (operand : Order.checkOperand expression state token = .ok ()) :
    Order.acceptSeparator expression state token =
      .ok (state.stack.takeWhile Reading.notOpen,
        { state with
          stack := state.stack.dropWhile Reading.notOpen
          frames := Order.addSeparator state.frames
          previous := some .separator }) := by
  unfold Order.acceptSeparator
  simp [call, content, operand, bind, Except.bind, pure, Except.pure]
  exact ⟨rfl, rfl⟩

theorem separator_refused (expression : String) (state : Order T σ) (token : Token T σ)
    (refused : state.frames.head?.any Frame.isCall = false ∨ state.previous = some .openParen ∨
      ∃ error, Order.checkOperand expression state token = .error error) :
    ∃ error, Order.acceptSeparator expression state token = .error error := by
  unfold Order.acceptSeparator
  by_cases call : state.frames.head?.any Frame.isCall = true
  · by_cases opened : state.previous = some .openParen
    · exact ⟨_, by simp [call, opened, bind, Except.bind]; rfl⟩
    · rcases refused with h | h | ⟨error, h⟩
      · simp [call] at h
      · exact absurd h opened
      · exact ⟨error, by simp [call, opened, h, bind, Except.bind]⟩
  · exact ⟨_, by simp [call, bind, Except.bind]; rfl⟩

theorem accept_separator (expression : String) (reading : Reading T σ) (token : Token T σ)
    (formed : reading.Formed) (idle : reading.pending = none) :
    Agrees (reading.advanceSeparator token) (Order.acceptSeparator expression reading.order token) := by
  unfold Reading.advanceSeparator
  cases present : reading.current with
  | none =>
      apply separator_refused
      cases slots : reading.slots with
      | nil => simp [Reading.order, slots, frames]
      | cons slot rest =>
          rcases check_before_operand expression reading token formed idle present slot rest slots with h | h
          · exact .inr (.inr h)
          · exact .inr (.inl h.1)
  | some p =>
      obtain ⟨freed, kept⟩ := stack_freed Reading.notOpen reading.slots formed.slots not_open_closed
      obtain ⟨operand, content⟩ := check_after_phrase expression reading token idle p present
      have frameList : reading.order.frames = frames false (reading.kept Reading.notOpen) := by
        rw [Reading.kept, frames_kept]
        simp [Reading.order, present]
      cases rest : reading.kept Reading.notOpen with
      | nil =>
          rw [rest] at frameList
          exact separator_refused expression reading.order token (.inl (by simp [frameList, frames]))
      | cons slot below =>
          have bracket := kept_bracket reading.slots formed.slots slot below rest
          rw [rest] at frameList
          cases slot with
          | group opening => exact separator_refused expression reading.order token (.inl (by simp [frameList, frames]))
          | call name opening done =>
              have taken := separator_taken expression reading.order token (by simp [frameList, frames]) content operand
              rw [order_stack reading idle, freed, kept, ← Reading.kept, rest, frameList] at taken
              rw [Agrees, taken]
              cases done <;> simp [Reading.order, idle, Reading.freed, Reading.previous, openRole,
                frames, separators, withArgument, argumentCount, Order.addSeparator, Reading.stackOf, Slot.stack]
          | before operator => simp [Slot.waiting?] at bracket
          | between left operator => simp [Slot.waiting?] at bracket

theorem close_taken (expression : String) (state : Order T σ) (token opening : Token T σ)
    (below : List (Token T σ)) (operand : Order.checkOperand expression state token = .ok ())
    (group : state.stack.dropWhile Reading.notOpen = opening :: below) :
    Order.acceptClose expression state token =
      (Order.closeGroup expression token (state.frames.headD ⟨false, 0, false⟩) below).map fun closed =>
        (state.stack.takeWhile Reading.notOpen ++ closed.1,
          { state with stack := closed.2, frames := state.frames.tail, previous := some .closeParen }) := by
  change state.stack.dropWhile (fun token => !Order.isOpen token) = opening :: below at group
  unfold Order.acceptClose
  rw [operand]
  simp only [bind, Except.bind, group]
  cases Order.closeGroup expression token (state.frames.headD ⟨false, 0, false⟩) below <;> rfl

theorem close_refused (expression : String) (state : Order T σ) (token : Token T σ)
    (refused : state.stack.dropWhile Reading.notOpen = [] ∨
      ∃ error, Order.checkOperand expression state token = .error error) :
    ∃ error, Order.acceptClose expression state token = .error error := by
  unfold Order.acceptClose
  cases operand : Order.checkOperand expression state token with
  | error error => exact ⟨error, rfl⟩
  | ok _ =>
      rcases refused with h | ⟨error, h⟩
      · change state.stack.dropWhile (fun token => !Order.isOpen token) = [] at h
        exact ⟨_, by simp [h, bind, Except.bind]; rfl⟩
      · exact absurd (operand.symm.trans h) (by simp)

theorem accept_close_phrase (expression : String) (reading : Reading T σ) (token : Token T σ)
    (formed : reading.Formed) (idle : reading.pending = none) (p : Phrase T σ) (present : reading.current = some p) :
    Agrees (reading.advanceClose token) (Order.acceptClose expression reading.order token) := by
  obtain ⟨freed, kept⟩ := stack_freed Reading.notOpen reading.slots formed.slots not_open_closed
  obtain ⟨operand, -⟩ := check_after_phrase expression reading token idle p present
  have frameList : reading.order.frames = frames false (reading.kept Reading.notOpen) := by
    rw [Reading.kept, frames_kept]
    simp [Reading.order, present]
  rw [← order_stack reading idle, ← Reading.kept] at kept
  rw [← order_stack reading idle, ← Reading.freed] at freed
  unfold Reading.advanceClose
  cases rest : reading.kept Reading.notOpen with
  | nil =>
      rw [rest] at kept
      rw [present]
      exact close_refused expression reading.order token (.inl kept)
  | cons slot below =>
      have bracket := kept_bracket reading.slots formed.slots slot below rest
      rw [rest] at frameList kept
      cases slot with
      | group opening =>
          rw [present, close_taken expression reading.order token opening (Reading.stackOf below) operand kept,
            freed, frameList]
          simp [Agrees, frames, Order.closeGroup, Except.map, Reading.order, idle, Reading.previous, lastRole]
      | call name opening done =>
          rw [present, close_taken expression reading.order token opening (name :: Reading.stackOf below) operand kept,
            freed, frameList]
          cases done <;> simp [Agrees, frames, Order.closeGroup, Except.map, Reading.order, idle,
            Reading.previous, lastRole, Reading.counted, separators, withArgument, argumentCount]
      | before operator => simp [Slot.waiting?] at bracket
      | between left operator => simp [Slot.waiting?] at bracket

theorem accept_close_empty (expression : String) (reading : Reading T σ) (token : Token T σ)
    (formed : reading.Formed) (idle : reading.pending = none) (absent : reading.current = none) :
    Agrees (reading.advanceClose token) (Order.acceptClose expression reading.order token) := by
  have stack := order_stack reading idle
  have refused : (∃ error, Order.acceptClose expression reading.order token = .error error) →
      (∀ name opening rest, reading.slots ≠ .call name opening none :: rest) →
      Agrees (reading.advanceClose token) (Order.acceptClose expression reading.order token) := by
    intro failed different
    have none : reading.advanceClose token = none := by
      unfold Reading.advanceClose
      split
      · simp_all
      · simp_all
      · rename_i name opening rest _ kept
        rw [if_neg]
        intro blank
        have whole := reading.freed_kept Reading.notOpen
        rw [blank, kept, List.nil_append] at whole
        exact different name opening rest whole.symm
      · rfl
    rw [none]
    exact failed
  cases slots : reading.slots with
  | nil =>
      apply refused
      · apply close_refused
        simp [stack, slots, Reading.stackOf]
      · simp [slots]
  | cons slot rest =>
      rcases check_before_operand expression reading token formed idle absent slot rest slots with h | h
      · apply refused (close_refused expression reading.order token (.inr h))
        intro name opening below same
        rw [slots] at same
        obtain rfl := (List.cons.inj same).1
        simp [Order.checkOperand, Reading.order, Reading.previous, idle, absent, slots, openRole] at h
      · obtain ⟨opened, bracket⟩ := h
        have operand : Order.checkOperand expression reading.order token = .ok () := by
          simp [Order.checkOperand, opened]
        have slotFormed : slot.Formed := formed.slots slot (by simp [slots])
        rcases bracket with ⟨opening, rfl⟩ | ⟨name, opening, rfl⟩
        · apply refused
          · have group : reading.order.stack.dropWhile Reading.notOpen = opening :: Reading.stackOf rest := by
              simp [stack, slots, Reading.stackOf, Slot.stack, not_open_closed opening slotFormed]
            rw [close_taken expression reading.order token opening (Reading.stackOf rest) operand group]
            simp [Order.closeGroup, Reading.order, slots, frames, absent, idle, Except.map]
          · simp [slots]
        · have closed := not_open_closed opening slotFormed.2
          have group : reading.order.stack.dropWhile Reading.notOpen = opening :: name :: Reading.stackOf rest := by
            simp [stack, slots, Reading.stackOf, Slot.stack, closed]
          have released : reading.order.stack.takeWhile Reading.notOpen = [] := by
            simp [stack, slots, Reading.stackOf, Slot.stack, closed]
          rw [close_taken expression reading.order token opening (name :: Reading.stackOf rest) operand group, released]
          simp [Agrees, Reading.advanceClose, absent, Reading.freed, Reading.kept, slots, Slot.freed, Slot.waiting?,
            Order.closeGroup, Reading.order, frames, idle, Except.map, Reading.counted, Reading.previous, lastRole]

theorem accept_order (expression : String) (reading : Reading T σ) (token : Token T σ) (formed : reading.Formed)
    (lone : ∀ form, token.alone = some form → form.isPrefix = true) (spared : reading.Spared token) :
    Agrees (reading.advance token) (Order.accept expression reading.order token) := by
  have marked (blank : Bool) := mark_frames blank reading.slots
  cases pending : reading.pending with
  | some name =>
      have absent := formed.paused name pending
      cases role : token.role <;>
        simp_all [Agrees, Reading.advance, Order.accept, Reading.order, Reading.previous, frames, openRole,
          separators, Reading.stackOf, Slot.stack]
  | none =>
      have operator := accept_operator expression reading token formed lone spared
      have separator := accept_separator expression reading token formed pending
      have close : Agrees (reading.advanceClose token) (Order.acceptClose expression reading.order token) := by
        cases present : reading.current with
        | none => exact accept_close_empty expression reading token formed pending present
        | some p => exact accept_close_phrase expression reading token formed pending p present
      have idle : reading.order.pending = none := by simp [Reading.order, pending]
      unfold Reading.advance Order.accept
      rw [pending, idle]
      cases role : token.role with
      | operand =>
          simp [Agrees, marked, Reading.order, Reading.previous, pending, Reading.drop, lastRole]
      | leftOperator => exact operator (by simp [role, Role.isOperator]) pending
      | rightOperator => exact operator (by simp [role, Role.isOperator]) pending
      | function => simp [Agrees, marked, Reading.order, Reading.previous, pending, Reading.drop]
      | openParen =>
          simp [Agrees, marked, Reading.order, Reading.previous, pending, Reading.drop, frames, openRole,
            Reading.stackOf, Slot.stack]
      | closeParen => exact close
      | separator => exact separator

theorem no_open_kept (reading : Reading T σ) (formed : reading.Formed) (idle : reading.pending = none) :
    reading.order.stack.find? Order.isOpen = none ↔ reading.kept Reading.notOpen = [] := by
  have kept := (stack_freed Reading.notOpen reading.slots formed.slots not_open_closed).2
  rw [← Reading.kept, ← order_stack reading idle] at kept
  have whole : reading.order.stack.find? Order.isOpen = none ↔
      reading.order.stack.dropWhile Reading.notOpen = [] := by
    rw [List.find?_eq_none, List.dropWhile_eq_nil_iff]
    simp [Reading.notOpen]
  rw [whole, kept]
  cases reading.kept Reading.notOpen with
  | nil => simp [Reading.stackOf]
  | cons slot rest => cases slot <;> simp [Reading.stackOf, Slot.stack]

theorem open_role_waits (slot : Slot T σ) (rest : List (Slot T σ)) (formed : slot.Formed) :
    (openRole (slot :: rest)).any Role.isOperator = slot.waiting?.isSome := by
  have waits := waiting_operator slot formed
  cases slot with
  | group _ => rfl
  | call _ _ done => cases done <;> rfl
  | before operator => simp [openRole, Slot.waiting?, waits operator.lone rfl]
  | between left operator => simp [openRole, Slot.waiting?, waits operator rfl]

theorem finish_order (expression : String) (reading : Reading T σ) (formed : reading.Formed)
    (out : List (Token T σ)) :
    Order.finish expression reading.order = .ok out ↔
      reading.pending = none ∧ reading.kept Reading.notOpen = [] ∧
        (reading.current = none → reading.slots = []) ∧ out = Reading.stackOf reading.slots := by
  unfold Order.finish
  cases pending : reading.pending with
  | some name => simp [Reading.order, pending]
  | none =>
      have idle : reading.order.pending = none := by simp [Reading.order, pending]
      have opened := no_open_kept reading formed pending
      have stack := order_stack reading pending
      rw [stack] at opened
      simp only [idle, stack]
      by_cases ended : reading.current = none → reading.slots = []
      · have quiet : reading.order.previous.any Role.isOperator = false := by
          cases present : reading.current with
          | none => simp [Reading.order, Reading.previous, pending, present, ended present, openRole]
          | some p =>
              rcases primary_previous p with role | role <;>
                simp [Reading.order, Reading.previous, pending, present, role, Role.isOperator]
        simp only [quiet, Bool.false_eq_true, if_false]
        cases found : (Reading.stackOf reading.slots).find? Order.isOpen with
        | none => simpa [opened.mp found, eq_comm] using fun _ => ended
        | some token =>
            have nonempty : reading.kept Reading.notOpen ≠ [] := fun empty => by simp [opened.mpr empty] at found
            simp [nonempty]
      · obtain ⟨absent, nonempty⟩ := Classical.not_imp.mp ended
        obtain ⟨slot, rest, slots⟩ := List.exists_cons_of_ne_nil nonempty
        have slotFormed := formed.slots slot (by simp [slots])
        have previous : reading.order.previous = openRole (slot :: rest) := by
          simp [Reading.order, Reading.previous, pending, absent, slots]
        rw [previous, open_role_waits slot rest slotFormed]
        cases waits : slot.waiting?.isSome with
        | true => simp [ended]
        | false =>
            have kept : reading.kept Reading.notOpen = slot :: rest := by
              rw [Reading.kept, slots]
              apply List.dropWhile_cons_of_neg
              intro freed
              simp [freed_waits Reading.notOpen slot freed] at waits
            cases found : (Reading.stackOf reading.slots).find? Order.isOpen with
            | none => simp [opened.mp found] at kept
            | some token => simp [kept]

end Formula.Phrase
