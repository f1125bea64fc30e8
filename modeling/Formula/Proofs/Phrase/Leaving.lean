import Formula.Proofs.Phrase.Order
import Mathlib.Data.List.Perm.Basic

set_option autoImplicit false

namespace Formula

variable {T σ : Type}

namespace Role

def completes : Role → Bool
  | .operand | .closeParen => true
  | _ => false

def isPunctuation : Role → Bool
  | .openParen | .closeParen | .separator => true
  | _ => false

end Role

namespace Token

def isOperand (token : Token T σ) : Bool := token.role = .operand

-- The token as it is read: an operator where an operand is expected takes the form that it has there.
def asRead (ended : Bool) (token : Token T σ) : Token T σ :=
  if token.role.isOperator && !ended then token.lone else token

end Token

namespace Phrase

def asRead (ended : Bool) : List (Token T σ) → List (Token T σ)
  | [] => []
  | token :: rest => token.asRead ended :: asRead token.role.completes rest

-- The separators directly inside of a bracket, in the text up to its end. The text starts some brackets deeper.
def commas (depth : Nat) : List (Token T σ) → Nat
  | [] => 0
  | token :: rest =>
      match token.role with
      | .openParen => commas (depth + 1) rest
      | .closeParen => if depth = 0 then 0 else commas (depth - 1) rest
      | .separator => commas depth rest + if depth = 0 then 1 else 0
      | .operand | .leftOperator | .rightOperator | .function => commas depth rest

def closesNow (text : List (Token T σ)) : Bool := text.head?.any (·.role = .closeParen)

def argumentsIn (text : List (Token T σ)) : Nat := if closesNow text then 0 else commas 0 text + 1

def leaving : List (Token T σ) → List (Token T σ)
  | [] => []
  | token :: rest =>
      match token.role with
      | .operand | .leftOperator | .rightOperator => token :: leaving rest
      | .function => Reading.counted token (argumentsIn rest.tail) :: leaving rest
      | .openParen | .closeParen | .separator => leaving rest

theorem leaving_pieces (text : List (Token T σ)) : ∀ token ∈ leaving text, token.role.isPunctuation = false := by
  induction text with
  | nil => simp [leaving]
  | cons token rest ih =>
      unfold leaving
      cases role : token.role <;> simp only [List.forall_mem_cons]
      case function => exact ⟨congrArg Role.isPunctuation role, ih⟩
      all_goals first | exact ih | exact ⟨by simp [role, Role.isPunctuation], ih⟩

theorem commas_past (depth : Nat) (token : Token T σ) (rest : List (Token T σ))
    (piece : token.role.isPunctuation = false) : commas depth (token :: rest) = commas depth rest := by
  cases role : token.role <;> simp_all [commas, Role.isPunctuation]

theorem leaving_kept (token : Token T σ) (rest : List (Token T σ))
    (role : token.role = .operand ∨ token.role.isOperator = true) :
    leaving (token :: rest) = token :: leaving rest := by
  rw [leaving]
  cases kind : token.role <;> simp_all [Role.isOperator]

theorem leaving_dropped (token : Token T σ) (rest : List (Token T σ)) (role : token.role.isPunctuation = true) :
    leaving (token :: rest) = leaving rest := by
  rw [leaving]
  cases kind : token.role <;> simp_all [Role.isPunctuation]

theorem operator_piece (token : Token T σ) (operator : token.role.isOperator = true) :
    token.role.isPunctuation = false := by
  rcases operator_role token operator with role | role <;> rw [role] <;> rfl

theorem advance_completes (reading next : Reading T σ) (token : Token T σ) (out : List (Token T σ))
    (paused : reading.Paused) (taken : reading.advance token = some (out, next)) :
    next.current.isSome = token.role.completes := by
  unfold Reading.advance at taken
  split at taken
  case h_1 name pending opening =>
    simp only [Option.some.injEq, Prod.mk.injEq] at taken
    obtain ⟨-, rfl⟩ := taken
    simp [paused name pending, opening, Role.completes]
  case h_2 => exact absurd taken (by simp)
  case h_3 idle role =>
    simp only [Option.some.injEq, Prod.mk.injEq] at taken
    obtain ⟨-, rfl⟩ := taken
    simp [role, Role.completes]
  case h_4 idle role =>
    simp only [Option.some.injEq, Prod.mk.injEq] at taken
    obtain ⟨-, rfl⟩ := taken
    simp [role, Role.completes, Reading.drop]
  case h_5 idle role =>
    simp only [Option.some.injEq, Prod.mk.injEq] at taken
    obtain ⟨-, rfl⟩ := taken
    simp [role, Role.completes, Reading.drop]
  case h_6 idle role => simp [(advance_operator_bare reading next token out taken).1, role, Role.completes]
  case h_7 idle role => simp [(advance_operator_bare reading next token out taken).1, role, Role.completes]
  case h_8 idle role => simp [(advance_separator_bare reading next token out taken).1, role, Role.completes]
  case h_9 idle role => simp [(advance_close_complete reading next token out taken).1, role, Role.completes]

mutual
def postorder : Phrase T σ → List (Token T σ)
  | .operand token => [token]
  | .group _ inner _ => inner.postorder
  | .emptyCall name _ _ => [Reading.counted name 0]
  | .call name _ args _ => argumentsPostorder args ++ [Reading.counted name (argumentCount args)]
  | .before operator inner => inner.postorder ++ [operator.lone]
  | .between left operator right => left.postorder ++ (right.postorder ++ [operator])
def argumentsPostorder : Arguments T σ → List (Token T σ)
  | .one arg => arg.postorder
  | .more args _ arg => argumentsPostorder args ++ arg.postorder
end

-- How a piece of a text is read and leaves, whatever comes after it: the separators that it adds to the bracket
-- around it, and what leaves of it in some order.
structure Spelled (text read left : List (Token T σ)) (more : Nat) : Prop where
  whole : ∀ rest, asRead false (text ++ rest) = read ++ asRead true rest
  begins : ∀ rest, closesNow (read ++ rest) = false
  separates : ∀ depth rest, commas depth (read ++ rest) = commas depth rest + if depth = 0 then more else 0
  leaves : ∀ rest, (leaving (read ++ rest)).Perm (left ++ leaving rest)

theorem argument_count_pos (args : Arguments T σ) : 1 ≤ argumentCount args := by
  cases args with
  | one _ => exact Nat.le_refl 1
  | more _ _ _ => exact Nat.le_add_left 1 _

mutual
theorem phrase_spelled (p : Phrase T σ) (formed : p.Formed) : ∃ read, Spelled p.tokens read p.postorder 0 := by
  cases p with
  | operand token =>
      have role : token.role = .operand := formed
      refine ⟨[token], ⟨fun rest => ?_, fun rest => ?_, fun depth rest => ?_, fun rest => ?_⟩⟩
      · simp [tokens, asRead, Token.asRead, role, Role.isOperator, Role.completes]
      · simp [closesNow, role]
      · simp [commas_past depth token rest (by rw [role]; rfl)]
      · simp [postorder, leaving_kept token rest (.inl role)]
  | group opening inner closing =>
      obtain ⟨openRole, innerFormed, closeRole⟩ := formed
      obtain ⟨read, inside⟩ := phrase_spelled inner innerFormed
      refine ⟨opening :: (read ++ [closing]), ⟨fun rest => ?_, fun rest => ?_, fun depth rest => ?_, fun rest => ?_⟩⟩
      · simp [tokens, asRead, Token.asRead, openRole, closeRole, Role.isOperator, Role.completes, inside.whole]
      · simp [closesNow, openRole]
      · simp [commas, openRole, closeRole, inside.separates]
      · simpa [postorder, leaving, openRole, closeRole] using inside.leaves (closing :: rest)
  | emptyCall name opening closing =>
      obtain ⟨nameRole, openRole, closeRole⟩ := formed
      refine ⟨[name, opening, closing], ⟨fun rest => ?_, fun rest => ?_, fun depth rest => ?_, fun rest => ?_⟩⟩
      · simp [tokens, asRead, Token.asRead, nameRole, openRole, closeRole, Role.isOperator, Role.completes]
      · simp [closesNow, nameRole]
      · simp [commas, nameRole, openRole, closeRole]
      · simp [postorder, leaving, nameRole, openRole, closeRole, argumentsIn, closesNow]
  | call name opening args closing =>
      obtain ⟨nameRole, openRole, argsFormed, closeRole⟩ := formed
      obtain ⟨read, inside⟩ := arguments_spelled args argsFormed
      refine ⟨name :: opening :: (read ++ [closing]),
        ⟨fun rest => ?_, fun rest => ?_, fun depth rest => ?_, fun rest => ?_⟩⟩
      · simp [tokens, asRead, Token.asRead, nameRole, openRole, closeRole, Role.isOperator, Role.completes,
          inside.whole]
      · simp [closesNow, nameRole]
      · simp [commas, nameRole, openRole, closeRole, inside.separates]
      · have counted : argumentsIn (read ++ closing :: rest) = argumentCount args := by
          have some := argument_count_pos args
          simp [argumentsIn, inside.begins, inside.separates, commas, closeRole]
          omega
        have kept := inside.leaves (closing :: rest)
        rw [leaving_dropped closing rest (by rw [closeRole]; rfl)] at kept
        simpa [postorder, leaving, nameRole, openRole, counted] using (kept.cons _).trans List.perm_middle.symm
  | before operator inner =>
      obtain ⟨role, prefixed, innerFormed⟩ := formed
      obtain ⟨read, inside⟩ := phrase_spelled inner innerFormed
      have lone : operator.lone.role.isOperator = true := Form.prefix_operator _ prefixed
      have bare : operator.role.completes = false := by
        rcases operator_role operator role with kind | kind <;> rw [kind] <;> rfl
      refine ⟨operator.lone :: read, ⟨fun rest => ?_, fun rest => ?_, fun depth rest => ?_, fun rest => ?_⟩⟩
      · simp [tokens, asRead, Token.asRead, role, bare, inside.whole]
      · rcases operator_role operator.lone lone with kind | kind <;> simp [closesNow, kind]
      · rw [List.cons_append, commas_past depth _ _ (operator_piece operator.lone lone), inside.separates]
      · rw [List.cons_append, leaving_kept operator.lone _ (.inr lone)]
        simpa [postorder] using ((inside.leaves rest).cons operator.lone).trans List.perm_middle.symm
  | between left operator right =>
      obtain ⟨role, binds, leftFormed, rightFormed⟩ := formed
      obtain ⟨first, former⟩ := phrase_spelled left leftFormed
      obtain ⟨second, latter⟩ := phrase_spelled right rightFormed
      have bare : operator.role.completes = false := by
        rcases operator_role operator role with kind | kind <;> rw [kind] <;> rfl
      refine ⟨first ++ operator :: second, ⟨fun rest => ?_, fun rest => ?_, fun depth rest => ?_, fun rest => ?_⟩⟩
      · simp [tokens, asRead, Token.asRead, former.whole, latter.whole, bare]
      · rw [List.append_assoc]
        exact former.begins _
      · rw [List.append_assoc, former.separates, List.cons_append, commas_past depth _ _ (operator_piece operator role),
          latter.separates, ite_self, Nat.add_zero]
      · rw [List.append_assoc, List.cons_append]
        have own := (latter.leaves rest).cons operator
        rw [← leaving_kept operator _ (.inr role)] at own
        have whole := (former.leaves (operator :: (second ++ rest))).trans
          ((own.trans List.perm_middle.symm).append_left left.postorder)
        simpa [postorder] using whole
theorem arguments_spelled (args : Arguments T σ) (formed : ArgumentsFormed args) :
    ∃ read, Spelled (argumentTokens args) read (argumentsPostorder args) (argumentCount args - 1) := by
  cases args with
  | one arg => exact phrase_spelled arg formed
  | more init comma arg =>
      obtain ⟨initFormed, separator, argFormed⟩ := formed
      obtain ⟨first, former⟩ := arguments_spelled init initFormed
      obtain ⟨second, latter⟩ := phrase_spelled arg argFormed
      refine ⟨first ++ comma :: second, ⟨fun rest => ?_, fun rest => ?_, fun depth rest => ?_, fun rest => ?_⟩⟩
      · simp [argumentTokens, asRead, Token.asRead, former.whole, latter.whole, separator, Role.completes]
      · rw [List.append_assoc]
        exact former.begins _
      · have some := argument_count_pos init
        rw [List.append_assoc, former.separates]
        simp only [List.cons_append, commas, separator, latter.separates, argumentCount]
        split <;> omega
      · rw [List.append_assoc]
        have kept := former.leaves (comma :: second ++ rest)
        rw [List.cons_append, leaving_dropped comma _ (by rw [separator]; rfl)] at kept
        simpa [argumentsPostorder] using kept.trans ((latter.leaves rest).append_left _)
end

theorem postorder_leaves (p : Phrase T σ) (formed : p.Formed) : p.postorder.Perm (leaving (asRead false p.tokens)) := by
  obtain ⟨read, spelled⟩ := phrase_spelled p formed
  have whole := spelled.whole []
  rw [List.append_nil, asRead, List.append_nil] at whole
  have leaves := spelled.leaves []
  rw [List.append_nil, leaving, List.append_nil] at leaves
  exact whole ▸ leaves.symm

end Phrase

end Formula
