import Formula.Proofs.Phrase.Keeping
import Formula.Proofs.Phrase.Tables

set_option autoImplicit false

namespace Formula

variable {T σ : Type}

-- Whether an operator may wait above another: it binds at least as tightly, and more tightly where it groups from
-- the left.
def Token.Above (upper lower : Token T σ) : Prop :=
  lower.form.precedence ≤ upper.form.precedence ∧
    (upper.role = .leftOperator → lower.form.precedence < upper.form.precedence)

theorem Token.Above.trans (upper middle lower : Token T σ) (first : upper.Above middle) (second : middle.Above lower) :
    upper.Above lower :=
  ⟨Nat.le_trans second.1 first.1, fun left => Nat.lt_of_le_of_lt second.1 (first.2 left)⟩

namespace Order

open Phrase

variable {expression : String}

-- Tokens that are taken one after another, while at least so many parentheses are open.
inductive Runs (expression : String) (depth : Nat) : Order T σ → List (Token T σ) → Order T σ → Prop
  | nil (state : Order T σ) (deep : depth ≤ state.frames.length) : Runs expression depth state [] state
  | cons (state middle next : Order T σ) (token : Token T σ) (rest out : List (Token T σ))
      (deep : depth ≤ state.frames.length) (accepted : accept expression state token = .ok (out, middle))
      (onward : Runs expression depth middle rest next) : Runs expression depth state (token :: rest) next

theorem runs_order (depth : Nat) (state next : Order T σ) (tokens : List (Token T σ))
    (runs : Runs expression depth state tokens next) :
    ∃ out : List (Token T σ), ∀ items,
      orderFrom expression state (tokens.map .ok ++ items) = out.map .ok ++ orderFrom expression next items := by
  induction runs with
  | nil => exact ⟨[], fun _ => rfl⟩
  | cons state middle next token rest now deep accepted onward ih =>
      obtain ⟨later, ordered⟩ := ih
      refine ⟨now ++ later, fun items => ?_⟩
      rw [List.map_cons, List.cons_append, orderFrom]
      simp only [accepted, ordered, List.map_append, List.append_assoc]

theorem Runs.deep (depth : Nat) (state next : Order T σ) (tokens : List (Token T σ))
    (runs : Runs expression depth state tokens next) : depth ≤ state.frames.length := by
  cases runs <;> assumption

def openings : List (Token T σ) → List (Token T σ × Option (Token T σ))
  | [] => []
  | token :: below => if isOpen token then (token, below.head?) :: openings below else openings below

-- The frames are those of the open parentheses, and calls are those with a function name below the parenthesis. A
-- function name has its parenthesis above it, unless it is on top and waits for it. Between parentheses every operator
-- may wait above those below it.
structure Aligned (state : Order T σ) : Prop where
  frames : List.Forall₂ (fun frame opening => frame.isCall = true ↔ ∃ name ∈ opening.2, name.role = .function)
    state.frames (openings state.stack)
  functions : state.stack.IsChain fun upper lower => lower.role = .function → upper.role = .openParen
  pending : ∀ name ∈ state.stack.head?, name.role = .function → state.pending = some name.span
  awaited : ∀ span, state.pending = some span → ∃ name ∈ state.stack.head?, name.role = .function ∧ name.span = span
  operators : ∀ group ∈ state.stack.splitOnP isOpen,
    (group.filter fun token => token.role.isOperator).Pairwise Token.Above

-- How the innermost parenthesis closes: alone, or with the name of its call, which then has its argument count.
inductive Closes (state : Order T σ) : List (Token T σ) → Order T σ → Prop
  | group (waiting below : List (Token T σ)) (opening : Token T σ) (frame : Frame) (frames : List Frame)
      (closed : ∀ token ∈ waiting, isOpen token = false) (opened : opening.role = .openParen)
      (stack : state.stack = waiting ++ opening :: below) (framed : state.frames = frame :: frames)
      (isGroup : frame.isCall = false) : Closes state waiting ⟨below, frames, some .closeParen, none⟩
  | call (waiting below : List (Token T σ)) (opening name : Token T σ) (frame : Frame) (frames : List Frame)
      (closed : ∀ token ∈ waiting, isOpen token = false) (opened : opening.role = .openParen)
      (function : name.role = .function) (stack : state.stack = waiting ++ opening :: name :: below)
      (framed : state.frames = frame :: frames) (isCall : frame.isCall = true) :
      Closes state (waiting ++ [{ name with argc := some (if frame.isBlank then 0 else frame.separators + 1) }])
        ⟨below, frames, some .closeParen, none⟩

structure Climbs (waiting : List (Token T σ)) : Prop where
  operators : ∀ token ∈ waiting, token.role.isOperator = true
  ascending : waiting.Pairwise Token.Above

theorem Climbs.nil : Climbs ([] : List (Token T σ)) := ⟨by simp, .nil⟩

theorem Climbs.closed (waiting : List (Token T σ)) (climbs : Climbs waiting) :
    ∀ token ∈ waiting, isOpen token = false := fun token member => by
  simpa [Reading.notOpen] using operator_not_opening token (climbs.operators token member)

theorem above_kept (incoming kept : Token T σ) (operator : kept.role.isOperator = true)
    (stays : releases incoming kept = false) : incoming.Above kept := by
  by_cases right : incoming.role = .rightOperator
  · have level : kept.form.precedence ≤ incoming.form.precedence := by simpa [releases, operator, right] using stays
    exact ⟨level, fun left => by simp [right] at left⟩
  · have level : kept.form.precedence < incoming.form.precedence := by simpa [releases, operator, right] using stays
    exact ⟨Nat.le_of_lt level, fun _ => level⟩

theorem Climbs.push (incoming : Token T σ) (waiting : List (Token T σ)) (operator : incoming.role.isOperator = true)
    (climbs : Climbs waiting) : Climbs (incoming :: waiting.dropWhile (releases incoming)) := by
  induction waiting with
  | nil => exact ⟨by simpa using operator, List.pairwise_singleton _ _⟩
  | cons top rest ih =>
      obtain ⟨above, ascending⟩ := List.pairwise_cons.mp climbs.ascending
      obtain ⟨topOperator, operators⟩ := List.forall_mem_cons.mp climbs.operators
      by_cases released : releases incoming top = true
      · rw [List.dropWhile_cons_of_pos released]
        exact ih ⟨operators, ascending⟩
      · rw [List.dropWhile_cons_of_neg released]
        have room := above_kept incoming top topOperator (by simpa using released)
        refine ⟨List.forall_mem_cons.mpr ⟨operator, climbs.operators⟩, .cons ?_ climbs.ascending⟩
        exact List.forall_mem_cons.mpr ⟨room, fun lower member => room.trans incoming top lower (above lower member)⟩

-- A stack above a base, with one mark for each open parenthesis in between: whether it opens a call.
inductive Stacked (base : List (Token T σ)) : List (Token T σ) → List Bool → Prop
  | bottom (waiting : List (Token T σ)) (climbs : Climbs waiting) : Stacked base (waiting ++ base) []
  | bracket (waiting : List (Token T σ)) (opening : Token T σ) (name : Option (Token T σ)) (below : List (Token T σ))
      (calls : List Bool) (climbs : Climbs waiting) (opened : opening.role = .openParen)
      (function : ∀ token ∈ name, token.role = .function) (rest : Stacked base below calls) :
      Stacked base (waiting ++ opening :: (name.toList ++ below)) (name.isSome :: calls)

-- A base is empty or is an open parenthesis with what lies below it, and has a mark for each of its parentheses.
inductive Floor : List (Token T σ) → List Bool → Prop
  | ground : Floor [] []
  | opened (opening : Token T σ) (below : List (Token T σ)) (isCall : Bool) (calls : List Bool)
      (parenthesis : opening.role = .openParen) : Floor (opening :: below) (isCall :: calls)

theorem Floor.head (base : List (Token T σ)) (deep : List Bool) (floor : Floor base deep) :
    ∀ token ∈ base.head?, token.role = .openParen := by
  cases floor with
  | ground => simp
  | opened opening below isCall calls parenthesis => simpa using parenthesis

theorem drop_above (free : Token T σ → Bool) (waiting rest : List (Token T σ))
    (stops : ∀ token ∈ rest.head?, free token = false) :
    (waiting ++ rest).dropWhile free = waiting.dropWhile free ++ rest := by
  rw [List.dropWhile_append]
  split
  case isTrue whole =>
    rw [List.isEmpty_iff.mp whole]
    cases rest with
    | nil => rfl
    | cons token below => exact List.dropWhile_cons_of_neg (by simp [stops token rfl])
  case isFalse => rfl

theorem Stacked.push (base stack : List (Token T σ)) (deep calls : List Bool) (incoming : Token T σ)
    (floor : Floor base deep) (operator : incoming.role.isOperator = true) (stacked : Stacked base stack calls) :
    Stacked base (incoming :: stack.dropWhile (releases incoming)) calls := by
  cases stacked with
  | bottom waiting climbs =>
      rw [drop_above _ waiting base fun token member =>
        releases_closed incoming token (floor.head base deep token member)]
      exact .bottom (incoming :: waiting.dropWhile (releases incoming)) (climbs.push incoming waiting operator)
  | bracket waiting opening name below calls climbs opened function rest =>
      rw [drop_above _ waiting _ (by simpa using releases_closed incoming opening opened)]
      exact .bracket (incoming :: waiting.dropWhile (releases incoming)) opening name below calls
        (climbs.push incoming waiting operator) opened function rest

theorem Climbs.freed (waiting rest : List (Token T σ)) (climbs : Climbs waiting)
    (stops : ∀ token ∈ rest.head?, token.role = .openParen) :
    (waiting ++ rest).takeWhile Reading.notOpen = waiting ∧ (waiting ++ rest).dropWhile Reading.notOpen = rest := by
  have free : ∀ token ∈ waiting, Reading.notOpen token = true := fun token member =>
    operator_not_opening token (climbs.operators token member)
  rw [List.takeWhile_append_of_pos free, List.dropWhile_append_of_pos free]
  cases rest with
  | nil => simp
  | cons token below => simp [not_open_closed token (stops token rfl)]

theorem Stacked.clear (base stack : List (Token T σ)) (deep calls : List Bool) (floor : Floor base deep)
    (stacked : Stacked base stack calls) : Stacked base (stack.dropWhile Reading.notOpen) calls := by
  cases stacked with
  | bottom waiting climbs =>
      rw [(climbs.freed waiting base (floor.head base deep)).2]
      exact .bottom [] .nil
  | bracket waiting opening name below calls climbs opened function rest =>
      rw [(climbs.freed waiting _ (by simpa using opened)).2]
      exact .bracket [] opening name below calls .nil opened function rest

-- What every step keeps. On top there may be a function name that waits for its parenthesis.
inductive Sound (base : List (Token T σ)) (deep : List Bool) : Order T σ → Prop
  | mk (name : Option (Token T σ)) (stack : List (Token T σ)) (calls : List Bool) (frames : List Frame)
      (previous : Option Role) (function : ∀ token ∈ name, token.role = .function) (stacked : Stacked base stack calls)
      (framed : frames.map Frame.isCall = calls ++ deep) :
      Sound base deep ⟨name.toList ++ stack, frames, previous, name.map Token.span⟩

theorem start_sound : Sound ([] : List (Token T σ)) [] start :=
  .mk none [] [] [] none (by simp) (.bottom [] .nil) rfl

theorem mark_calls (frames : List Frame) : (markContent frames).map Frame.isCall = frames.map Frame.isCall := by
  cases frames <;> rfl

theorem separator_calls (frames : List Frame) : (addSeparator frames).map Frame.isCall = frames.map Frame.isCall := by
  cases frames <;> rfl

theorem close_group_ok (token : Token T σ) (frame : Frame) (name : Option (Token T σ))
    (below completed rest : List (Token T σ)) (called : frame.isCall = name.isSome)
    (closed : closeGroup expression token frame (name.toList ++ below) = .ok (completed, rest)) :
    rest = below ∧ completed = (name.map fun function =>
      { function with argc := some (if frame.isBlank then 0 else frame.separators + 1) }).toList := by
  unfold closeGroup at closed
  cases name with
  | none =>
      rw [if_neg (by simp [called])] at closed
      split at closed
      · simp at closed
      · simp only [Option.toList_none, List.nil_append, Except.ok.injEq, Prod.mk.injEq] at closed
        exact ⟨closed.2.symm, closed.1.symm⟩
  | some function =>
      rw [if_pos (by simp [called])] at closed
      simp only [Option.toList_some, List.singleton_append, Except.ok.injEq, Prod.mk.injEq] at closed
      exact ⟨closed.2.symm, closed.1.symm⟩

theorem placed_operator (state : Order T σ) (token waiting : Token T σ) (operator : token.role.isOperator = true)
    (lone : ∀ form, token.alone = some form → form.isPrefix = true)
    (placed : placed expression state token = .ok waiting) : waiting.role.isOperator = true := by
  unfold Order.placed at placed
  split at placed
  · split at placed
    · obtain rfl := Except.ok.inj placed
      exact operator
    · split at placed
      case h_1 form alone =>
        obtain rfl := Except.ok.inj placed
        exact Form.prefix_operator form (lone form alone)
      case h_2 => simp at placed
  · split at placed
    · simp at placed
    · obtain rfl := Except.ok.inj placed
      exact operator

theorem close_bracket (waiting : List (Token T σ)) (opening : Token T σ) (name : Option (Token T σ))
    (below : List (Token T σ)) (calls : List Bool) (frames : List Frame) (previous : Option Role)
    (climbs : Climbs waiting) (opened : opening.role = .openParen) (framed : frames.map Frame.isCall = name.isSome :: calls) (token : Token T σ)
    (out : List (Token T σ)) (next : Order T σ)
    (accepted : acceptClose expression ⟨waiting ++ opening :: (name.toList ++ below), frames, previous, none⟩ token =
      .ok (out, next)) :
    ∃ frame outer, frames = frame :: outer ∧ frame.isCall = name.isSome ∧ outer.map Frame.isCall = calls ∧
      next = ⟨below, outer, some .closeParen, none⟩ ∧
      out = waiting ++ (name.map fun function =>
        { function with argc := some (if frame.isBlank then 0 else frame.separators + 1) }).toList := by
  obtain ⟨released, kept⟩ := climbs.freed waiting (opening :: (name.toList ++ below)) (by simpa using opened)
  obtain ⟨frame, outer, rfl, called, rfl⟩ := List.map_eq_cons_iff.mp framed
  obtain ⟨found, rest, completed, left, group, closed, rfl, rfl⟩ := close_accepted expression _ next token out accepted
  obtain ⟨rfl, rfl⟩ := List.cons.inj (kept.symm.trans group)
  obtain ⟨rfl, rfl⟩ := close_group_ok token frame name below completed left called closed
  exact ⟨frame, outer, rfl, called, rfl, rfl, by rw [released]⟩

theorem close_sound (base : List (Token T σ)) (deep : List Bool) (floor : Floor base deep) (stack : List (Token T σ))
    (calls : List Bool) (frames : List Frame) (previous : Option Role) (stacked : Stacked base stack calls)
    (framed : frames.map Frame.isCall = calls ++ deep) (token : Token T σ) (out : List (Token T σ)) (next : Order T σ)
    (accepted : acceptClose expression ⟨stack, frames, previous, none⟩ token = .ok (out, next))
    (remains : deep.length ≤ next.frames.length) : Sound base deep next := by
  cases stacked with
  | bottom waiting climbs =>
      -- The parenthesis at the top of the base would be the one that closes.
      exfalso
      have kept := (climbs.freed waiting base (floor.head base deep)).2
      obtain ⟨opening, below, completed, rest, group, -, -, rfl⟩ := close_accepted expression _ next token out accepted
      have frameCount := congrArg List.length framed
      cases floor with
      | ground => exact absurd (kept.symm.trans group) (by simp)
      | opened =>
          simp only [List.length_map, List.nil_append, List.length_cons] at frameCount
          simp only [List.length_cons, List.length_tail] at remains
          omega
  | bracket waiting opening name below calls climbs opened function rest =>
      obtain ⟨frame, outer, -, -, outerFramed, rfl, -⟩ :=
        close_bracket waiting opening name below (calls ++ deep) frames previous climbs opened framed token out next
          accepted
      exact .mk none below calls outer (some .closeParen) (by simp) rest outerFramed

theorem accept_idle (state : Order T σ) (token : Token T σ) (step : List (Token T σ) × Order T σ)
    (other : token.role ≠ .openParen) (accepted : accept expression state token = .ok step) : state.pending = none := by
  cases pending : state.pending with
  | none => rfl
  | some span => cases role : token.role <;> simp_all [accept]

theorem accept_sound (base : List (Token T σ)) (deep : List Bool) (floor : Floor base deep) (state next : Order T σ)
    (token : Token T σ) (out : List (Token T σ)) (lone : ∀ form, token.alone = some form → form.isPrefix = true)
    (sound : Sound base deep state) (accepted : accept expression state token = .ok (out, next))
    (remains : deep.length ≤ next.frames.length) : Sound base deep next := by
  obtain ⟨name, stack, calls, frames, previous, function, stacked, framed⟩ := sound
  have marked : (markContent frames).map Frame.isCall = calls ++ deep := (mark_calls frames).trans framed
  by_cases opens : token.role = .openParen
  · have taken : accept expression ⟨name.toList ++ stack, frames, previous, name.map Token.span⟩ token =
        .ok ([], ⟨token :: (name.toList ++ stack), ⟨(name.map Token.span).isSome, 0, true⟩ :: markContent frames,
          some .openParen, none⟩) := by
      simp [accept, opens]
    obtain ⟨-, rfl⟩ := Prod.mk.inj (Except.ok.inj (taken.symm.trans accepted))
    exact .mk none _ (name.isSome :: calls) _ _ (by simp) (.bracket [] token name stack calls .nil opens function stacked)
      (by simp [marked])
  · obtain rfl : name = none := by simpa using accept_idle _ token _ opens accepted
    have operator (role : token.role.isOperator = true) : Sound base deep next := by
      rw [accept_of_operator _ token rfl role] at accepted
      obtain ⟨waiting, placed, -, rfl⟩ := operator_accepted expression _ next token out accepted
      have waits := placed_operator _ token waiting role lone placed
      exact .mk none _ calls _ _ (by simp) (stacked.push base stack deep calls waiting floor waits) marked
    cases role : token.role with
    | openParen => exact absurd role opens
    | operand =>
        simp only [accept, role, Option.map_none, Except.ok.injEq, Prod.mk.injEq] at accepted
        obtain ⟨-, rfl⟩ := accepted
        exact .mk none stack calls _ _ function stacked marked
    | function =>
        simp only [accept, role, Option.map_none, Except.ok.injEq, Prod.mk.injEq] at accepted
        obtain ⟨-, rfl⟩ := accepted
        exact .mk (some token) stack calls _ _ (by simpa using role) stacked marked
    | leftOperator => exact operator (by simp [role, Role.isOperator])
    | rightOperator => exact operator (by simp [role, Role.isOperator])
    | closeParen =>
        rw [accept_close _ token rfl role] at accepted
        exact close_sound base deep floor stack calls frames previous stacked framed token out next accepted remains
    | separator =>
        rw [accept_comma _ token rfl role] at accepted
        obtain ⟨-, -, rfl⟩ := separator_accepted expression _ next token out accepted
        exact .mk none _ calls _ _ (by simp) (stacked.clear base stack deep calls floor)
          ((separator_calls frames).trans framed)

theorem runs_sound (base : List (Token T σ)) (deep : List Bool) (floor : Floor base deep) (state next : Order T σ)
    (tokens : List (Token T σ)) (lone : ∀ token ∈ tokens, ∀ form, token.alone = some form → form.isPrefix = true)
    (runs : Runs expression deep.length state tokens next) (sound : Sound base deep state) : Sound base deep next := by
  induction runs with
  | nil => exact sound
  | cons state middle next token rest out _ accepted onward ih =>
      rw [List.forall_mem_cons] at lone
      exact ih lone.2 (accept_sound base deep floor state middle token out lone.1 sound accepted onward.deep)

theorem operator_no_function (token : Token T σ) (operator : token.role.isOperator = true) : token.role ≠ .function := by
  rcases operator_role token operator with role | role <;> simp [role]

theorem Climbs.no_function (waiting : List (Token T σ)) (climbs : Climbs waiting) :
    ∀ token ∈ waiting, token.role ≠ .function := fun token member =>
  operator_no_function token (climbs.operators token member)

theorem Stacked.top (stack : List (Token T σ)) (calls : List Bool) (stacked : Stacked [] stack calls) :
    ∀ token ∈ stack.head?, token.role ≠ .function := by
  cases stacked with
  | bottom waiting climbs =>
      rw [List.append_nil]
      exact fun token member => climbs.no_function waiting token (List.mem_of_mem_head? member)
  | bracket waiting opening name below calls climbs opened function rest =>
      cases waiting with
      | nil => simp [opened]
      | cons token rest => simpa using climbs.no_function _ token (by simp)

theorem openings_above (waiting below : List (Token T σ)) (closed : ∀ token ∈ waiting, isOpen token = false) :
    openings (waiting ++ below) = openings below := by
  induction waiting with
  | nil => rfl
  | cons token rest ih =>
      obtain ⟨shut, closed⟩ := List.forall_mem_cons.mp closed
      rw [List.cons_append, openings, if_neg (by simp [shut]), ih closed]

theorem name_closed (name : Option (Token T σ)) (function : ∀ token ∈ name, token.role = .function) :
    ∀ token ∈ name.toList, isOpen token = false := fun token member => by
  simp [isOpen, function token (Option.mem_toList.mp member)]

theorem Stacked.frames (stack : List (Token T σ)) (calls : List Bool) (stacked : Stacked [] stack calls) :
    List.Forall₂ (fun isCall opening => isCall = true ↔ ∃ name ∈ opening.2, name.role = .function) calls
      (openings stack) := by
  induction stacked with
  | bottom waiting climbs =>
      rw [openings_above waiting [] climbs.closed]
      exact .nil
  | bracket waiting opening name below calls climbs opened function rest ih =>
      rw [openings_above waiting _ climbs.closed, openings, if_pos (by simp [isOpen, opened]),
        openings_above name.toList below (name_closed name function)]
      refine .cons ?_ ih
      cases name with
      | some name => simpa using function name rfl
      | none => simpa using rest.top below calls

theorem Stacked.functions (stack : List (Token T σ)) (calls : List Bool) (stacked : Stacked [] stack calls) :
    stack.IsChain fun upper lower => lower.role = .function → upper.role = .openParen := by
  have chain (waiting : List (Token T σ)) (climbs : Climbs waiting) :
      waiting.IsChain fun upper lower => lower.role = .function → upper.role = .openParen :=
    (List.pairwise_of_forall_mem_list fun _ _ lower member function =>
      absurd function (climbs.no_function waiting lower member)).isChain
  induction stacked with
  | bottom waiting climbs =>
      rw [List.append_nil]
      exact chain waiting climbs
  | bracket waiting opening name below calls climbs opened function rest ih =>
      refine List.isChain_append.mpr ⟨chain waiting climbs, ?_, by simp [opened]⟩
      cases name with
      | some name =>
          exact .cons_cons (fun _ => opened)
            (ih.cons fun lower top role => absurd role (rest.top below calls lower top))
      | none => exact ih.cons fun _ _ _ => opened

theorem named_groups (name : Option (Token T σ)) (stack : List (Token T σ))
    (function : ∀ token ∈ name, token.role = .function)
    (ordered : ∀ group ∈ stack.splitOnP isOpen, (group.filter fun token => token.role.isOperator).Pairwise Token.Above) :
    ∀ group ∈ (name.toList ++ stack).splitOnP isOpen,
      (group.filter fun token => token.role.isOperator).Pairwise Token.Above := by
  cases name with
  | none => exact ordered
  | some name =>
      have role := function name rfl
      obtain ⟨first, others, groups⟩ := List.exists_cons_of_ne_nil (List.splitOnP_ne_nil isOpen stack)
      rw [groups, List.forall_mem_cons] at ordered
      rw [Option.toList_some, List.singleton_append, List.splitOnP_cons_eq_if_modifyHead, if_neg (by simp [isOpen, role]),
        groups, List.modifyHead_cons, List.forall_mem_cons]
      exact ⟨by simpa [role, Role.isOperator] using ordered.1, ordered.2⟩

theorem Stacked.operators (stack : List (Token T σ)) (calls : List Bool) (stacked : Stacked [] stack calls) :
    ∀ group ∈ stack.splitOnP isOpen, (group.filter fun token => token.role.isOperator).Pairwise Token.Above := by
  induction stacked with
  | bottom waiting climbs =>
      rw [List.append_nil, List.splitOnP_eq_singleton climbs.closed, List.forall_mem_singleton]
      exact climbs.ascending.filter _
  | bracket waiting opening name below calls climbs opened function rest ih =>
      rw [List.splitOnP_append_cons_of_forall_mem climbs.closed opening (by simp [isOpen, opened]), List.forall_mem_cons]
      exact ⟨climbs.ascending.filter _, named_groups name below function ih⟩

theorem Sound.aligned (state : Order T σ) (sound : Sound [] [] state) : state.Aligned := by
  obtain ⟨name, stack, calls, frames, previous, function, stacked, framed⟩ := sound
  rw [List.append_nil] at framed
  have matched := stacked.frames stack calls
  rw [← framed, List.forall₂_map_left_iff, ← openings_above name.toList stack (name_closed name function)] at matched
  have top := stacked.top stack calls
  constructor
  · exact matched
  · cases name with
    | none => exact stacked.functions stack calls
    | some name => exact (stacked.functions stack calls).cons fun lower member role => absurd role (top lower member)
  · cases name with
    | none => exact fun token member role => absurd role (top token member)
    | some name => simp
  · cases name with
    | none => simp
    | some name => simpa using function name rfl
  · exact named_groups name stack function (stacked.operators stack calls)

theorem Sound.framed (state : Order T σ) (sound : Sound [] [] state) (token : Token T σ) (waits : token ∈ state.stack)
    (opened : token.role = .openParen) : state.frames ≠ [] := by
  obtain ⟨name, stack, calls, frames, previous, function, stacked, framed⟩ := sound
  cases stacked with
  | bottom waiting climbs =>
      have closed : isOpen token = false := by
        simp only [List.append_nil, List.mem_append] at waits
        exact waits.elim (name_closed name function token) (climbs.closed waiting token)
      exact absurd closed (by simp [isOpen, opened])
  | bracket =>
      rintro rfl
      exact absurd framed (by simp)

theorem Sound.closes (state next : Order T σ) (closing : Token T σ) (out : List (Token T σ)) (sound : Sound [] [] state)
    (role : closing.role = .closeParen) (accepted : accept expression state closing = .ok (out, next)) :
    Closes state out next := by
  obtain ⟨name, stack, calls, frames, previous, function, stacked, framed⟩ := sound
  obtain rfl : name = none := by simpa using accept_idle _ closing _ (by simp [role]) accepted
  rw [accept_close _ closing rfl role] at accepted
  cases stacked with
  | bottom waiting climbs =>
      have kept := (climbs.freed waiting [] (by simp)).2
      obtain ⟨opening, below, completed, rest, group, -, -, -⟩ := close_accepted expression _ next closing out accepted
      exact absurd (kept.symm.trans group) (by simp)
  | bracket waiting opening name below calls climbs opened function rest =>
      rw [List.append_nil] at framed
      obtain ⟨frame, outer, rfl, called, -, rfl, rfl⟩ :=
        close_bracket waiting opening name below calls frames previous climbs opened framed closing out next accepted
      cases name with
      | none =>
          simp only [Option.map_none, Option.toList_none, List.append_nil]
          exact .group waiting below opening frame outer climbs.closed opened rfl rfl called
      | some name =>
          exact .call waiting below opening name frame outer climbs.closed opened (function name rfl) rfl rfl called

theorem call_begins (depth : Nat) (state opened : Order T σ) (name opening : Token T σ) (function : name.role = .function)
    (called : Runs expression depth state [name, opening] opened) :
    opening.role = .openParen ∧ opened = ⟨opening :: name :: state.stack,
      ⟨true, 0, true⟩ :: markContent (markContent state.frames), some .openParen, none⟩ := by
  obtain _ | ⟨_, named, _, _, _, _, -, first, _ | ⟨_, _, _, _, _, _, -, second, ended⟩⟩ := called
  cases ended
  have idle := accept_idle state name _ (by simp [function]) first
  have taken : accept expression state name =
      .ok ([], ⟨name :: state.stack, markContent state.frames, some .function, some name.span⟩) := by
    simp [accept, idle, function]
  obtain ⟨-, rfl⟩ := Prod.mk.inj (Except.ok.inj (taken.symm.trans first))
  have parenthesis : opening.role = .openParen := by
    by_contra other
    exact absurd (accept_idle _ opening _ other second) (by simp)
  have opens : accept expression ⟨name :: state.stack, markContent state.frames, some .function, some name.span⟩ opening =
      .ok ([], ⟨opening :: name :: state.stack, ⟨true, 0, true⟩ :: markContent (markContent state.frames),
        some .openParen, none⟩) := by
    simp [accept, parenthesis]
  obtain ⟨-, rfl⟩ := Prod.mk.inj (Except.ok.inj (opens.symm.trans second))
  exact ⟨parenthesis, rfl⟩

theorem call_closes (depth : Nat) (state opened last next : Order T σ) (name opening closing : Token T σ)
    (inside out : List (Token T σ)) (function : name.role = .function)
    (called : Runs expression depth state [name, opening] opened)
    (lone : ∀ token ∈ inside, ∀ form, token.alone = some form → form.isPrefix = true)
    (inner : Runs expression opened.frames.length opened inside last) (level : last.frames.length = opened.frames.length)
    (role : closing.role = .closeParen) (accepted : accept expression last closing = .ok (out, next)) :
    ∃ waiting count, out = waiting ++ [{ name with argc := some count }] ∧ next.stack = state.stack := by
  obtain ⟨parenthesis, rfl⟩ := call_begins depth state opened name opening function called
  obtain ⟨pending, stack, calls, frames, previous, -, stacked, framed⟩ :=
    runs_sound (opening :: name :: state.stack) (true :: (markContent (markContent state.frames)).map Frame.isCall)
      (.opened opening _ _ _ parenthesis) _ last inside lone (by simpa using inner)
      (.mk none _ [] _ _ (by simp) (.bottom [] .nil) rfl)
  obtain rfl : pending = none := by simpa using accept_idle _ closing _ (by simp [role]) accepted
  rw [accept_close _ closing rfl role] at accepted
  cases stacked with
  | bottom waiting climbs =>
      obtain ⟨frame, outer, -, -, -, rfl, rfl⟩ := close_bracket waiting opening (some name) state.stack _ frames previous
        climbs parenthesis framed closing out next accepted
      exact ⟨waiting, _, rfl, rfl⟩
  | bracket =>
      -- Another parenthesis would be open above that of the call.
      have frameCount := congrArg List.length framed
      simp only [List.length_map, List.length_append, List.length_cons] at frameCount level
      omega

-- The stacks stay aligned over every stream of tokens that the reordering goes through. A closing parenthesis never
-- lacks its frame, and a call that closes counts the arguments of the name that it began with.
theorem stacks_stay_aligned [Numeric T] (settings : Settings T σ) (evaluator : Evaluator T σ)
    (built : settings.build = .ok evaluator) (grammar : Grammar T σ) (extended : evaluator.grammar.Extended grammar)
    (expression : String) (tokens : List (Token T σ)) (carried : ∀ token ∈ tokens, Carries grammar token)
    (state : Order T σ) (reached : Runs expression 0 start tokens state) :
    (∃ out : List (Token T σ), ∀ items,
      orderFrom expression start (tokens.map .ok ++ items) = out.map .ok ++ orderFrom expression state items) ∧
    state.Aligned ∧
    (∀ token ∈ state.stack, token.role = .openParen → state.frames ≠ []) ∧
    (∀ closing out next, closing.role = .closeParen → accept expression state closing = .ok (out, next) →
      Closes state out next) ∧
    ∀ name opening inside closing opened last next out, name.role = .function →
      Runs expression 0 state [name, opening] opened → (∀ token ∈ inside, Carries grammar token) →
      Runs expression opened.frames.length opened inside last → last.frames.length = opened.frames.length →
      closing.role = .closeParen → accept expression last closing = .ok (out, next) →
      ∃ waiting count, out = waiting ++ [{ name with argc := some count }] ∧ next.stack = state.stack := by
  have lone (tokens : List (Token T σ)) (carried : ∀ token ∈ tokens, Carries grammar token) :
      ∀ token ∈ tokens, ∀ form, token.alone = some form → form.isPrefix = true := fun token member =>
    (carried_usable settings evaluator built grammar extended token (carried token member)).lone
  have sound : Sound [] [] state := runs_sound [] [] .ground start state tokens (lone tokens carried) reached start_sound
  refine ⟨runs_order 0 start state tokens reached, sound.aligned, sound.framed,
    fun closing out next => sound.closes state next closing out, ?_⟩
  intro name opening inside closing opened last next out function called carriedInside inner level role accepted
  exact call_closes 0 state opened last next name opening closing inside out function called (lone inside carriedInside)
    inner level role accepted

def choice : Token Rat Unit := .ofTemplate (.function "if" .conditional) ⟨3, 5⟩

def times : Token Rat Unit := .ofTemplate (.leftBinary "*" .mul 20 none) ⟨11, 12⟩

def bracket (template : Template Rat Unit) (start : Nat) : Token Rat Unit := .ofTemplate template ⟨start, start + 1⟩

-- The tokens before the call in `(1-if(2,(3)*4))`, and those between its parentheses.
def introduction : List (Token Rat Unit) :=
  [bracket (.punctuation "(" .openParen) 0, number 1 ⟨1, 2⟩, bracket minusTemplate 2]

def arguments : List (Token Rat Unit) :=
  [number 2 ⟨6, 7⟩, bracket (.punctuation "," .separator) 7, bracket (.punctuation "(" .openParen) 8, number 3 ⟨9, 10⟩,
    bracket (.punctuation ")" .closeParen) 10, times, number 4 ⟨12, 13⟩]

-- What waits before the call, where its parenthesis has opened, and where that is about to close.
def ahead : Order Rat Unit :=
  ⟨[bracket minusTemplate 2, bracket (.punctuation "(" .openParen) 0], [⟨false, 0, false⟩], some .leftOperator, none⟩

def within : Order Rat Unit :=
  ⟨bracket (.punctuation "(" .openParen) 5 :: choice :: ahead.stack, ⟨true, 0, true⟩ :: ahead.frames, some .openParen,
    none⟩

def complete : Order Rat Unit := ⟨times :: within.stack, ⟨true, 1, false⟩ :: ahead.frames, some .operand, none⟩

theorem choice_counted :
    ∃ evaluator next, (Settings.ofFlags ⟨true, true, false, true⟩ : Settings Rat Unit).build = .ok evaluator ∧
      Runs "(1-if(2,(3)*4))" 0 start introduction ahead ∧
      Runs "(1-if(2,(3)*4))" 0 ahead [choice, bracket (.punctuation "(" .openParen) 5] within ∧
      (∀ token ∈ arguments, Carries evaluator.grammar token) ∧
      Runs "(1-if(2,(3)*4))" within.frames.length within arguments complete ∧
      (∃ out : List (Token Rat Unit), ∀ items, orderFrom "(1-if(2,(3)*4))" start (introduction.map .ok ++ items) =
        out.map .ok ++ orderFrom "(1-if(2,(3)*4))" ahead items) ∧
      accept "(1-if(2,(3)*4))" complete (bracket (.punctuation ")" .closeParen) 13) =
        .ok ([times, { choice with argc := some 2 }], next) ∧
      ahead.Aligned ∧ next.stack = ahead.stack := by
  obtain ⟨evaluator, built, opening, closing, comma, minus, product⟩ :
      ∃ evaluator, (Settings.ofFlags ⟨true, true, false, true⟩ : Settings Rat Unit).build = .ok evaluator ∧
        ⟨['('], .punctuation "(" .openParen⟩ ∈ evaluator.grammar.operators ∧
        ⟨[')'], .punctuation ")" .closeParen⟩ ∈ evaluator.grammar.operators ∧
        ⟨[','], .punctuation "," .separator⟩ ∈ evaluator.grammar.operators ∧
        ⟨['-'], minusTemplate⟩ ∈ evaluator.grammar.operators ∧
        ⟨['*'], .leftBinary "*" .mul 20 none⟩ ∈ evaluator.grammar.operators :=
    ⟨_, rfl, List.mem_of_getElem? (i := 0) rfl, List.mem_of_getElem? (i := 1) rfl, List.mem_of_getElem? (i := 2) rfl,
      List.mem_of_getElem? (i := 4) rfl, List.mem_of_getElem? (i := 5) rfl⟩
  have before : ∀ token ∈ introduction, Carries evaluator.grammar token := by
    simp only [introduction, List.forall_mem_cons]
    exact ⟨.operator _ opening _, .literal _ _ _, .operator _ minus _, by simp⟩
  have inside : ∀ token ∈ arguments, Carries evaluator.grammar token := by
    simp only [arguments, List.forall_mem_cons]
    exact ⟨.literal _ _ _, .operator _ comma _, .operator _ opening _, .literal _ _ _, .operator _ closing _,
      .operator _ product _, .literal _ _ _, by simp⟩
  have reached : Runs "(1-if(2,(3)*4))" 0 start introduction ahead :=
    .cons _ _ _ _ _ _ (Nat.zero_le _) rfl (.cons _ _ _ _ _ _ (Nat.zero_le _) rfl
      (.cons _ _ _ _ _ _ (Nat.zero_le _) rfl (.nil _ (Nat.zero_le _))))
  have called : Runs "(1-if(2,(3)*4))" 0 ahead [choice, bracket (.punctuation "(" .openParen) 5] within :=
    .cons _ _ _ _ _ _ (Nat.zero_le _) rfl (.cons _ _ _ _ _ _ (Nat.zero_le _) rfl (.nil _ (Nat.zero_le _)))
  have inner : Runs "(1-if(2,(3)*4))" within.frames.length within arguments complete :=
    .cons _ _ _ _ _ _ (by decide) rfl (.cons _ _ _ _ _ _ (by decide) rfl (.cons _ _ _ _ _ _ (by decide) rfl
      (.cons _ _ _ _ _ _ (by decide) rfl (.cons _ _ _ _ _ _ (by decide) rfl (.cons _ _ _ _ _ _ (by decide) rfl
        (.cons _ _ _ _ _ _ (by decide) rfl (.nil _ (by decide))))))))
  obtain ⟨passes, aligned, -, -, counted⟩ :=
    stacks_stay_aligned _ evaluator built evaluator.grammar .base "(1-if(2,(3)*4))" _ before ahead reached
  obtain ⟨-, -, -, left⟩ := counted choice (bracket (.punctuation "(" .openParen) 5) arguments
    (bracket (.punctuation ")" .closeParen) 13) within complete _ _ rfl called inside inner rfl rfl rfl
  exact ⟨evaluator, _, built, reached, called, inside, inner, passes, rfl, aligned, left⟩

end Order

end Formula
