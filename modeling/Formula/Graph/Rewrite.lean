import Formula.Graph

/-!
The rules that replace a node by a simpler one. They look one layer down: a node is rewritten when
its children already are.
-/

set_option autoImplicit false

namespace Formula

inductive Replacement (T σ : Type) where
  | existing (index : Nat)
  | fresh (shape : Shape T σ Nat)

namespace Cells

variable {T σ : Type}

def constantAt? (cells : Cells T σ) (index : Nat) : Option T :=
  match cells[index]? with
  | some (.constant value _) => some value
  | _ => none

end Cells

namespace Rewrite

variable {T σ : Type} [Numeric T]

def negated (operand : Nat) (span : Span) : Replacement T σ :=
  .fresh (.unary .negate operand span)

def leftIdentity? (op : BinaryOperator) (value : T) (left right : Nat) (span : Span) :
    Option (Replacement T σ) :=
  if Numeric.isZero value then
    match op with
    | .add | .bitOr | .bitXor => some (.existing right)
    | .mul | .bitAnd | .shl | .shr => some (.existing left)
    | .sub => some (negated right span)
    | .div | .rem | .pow => none
  else if Numeric.isOne value && op = .mul then
    some (.existing right)
  else if Numeric.signed T && Numeric.isMinusOne value && op = .mul then
    some (negated right span)
  else
    none

def rightIdentity? (op : BinaryOperator) (value : T) (left right : Nat) (span : Span) :
    Option (Replacement T σ) :=
  if Numeric.isZero value then
    match op with
    | .add | .sub | .bitOr | .bitXor | .shl | .shr => some (.existing left)
    | .mul | .bitAnd => some (.existing right)
    | .div | .rem | .pow => none
  else if Numeric.isOne value && (op = .mul || op = .div) then
    some (.existing left)
  else if Numeric.signed T && Numeric.isMinusOne value && (op = .mul || op = .div) then
    some (negated left span)
  else
    none

-- A value that was computed stands for its node; a failure leaves the node to fail again.
def folded? (outcome : Except EvalError T) : Option (Replacement T σ) :=
  match outcome with
  | .ok value => some (.fresh (.constant value none))
  | .error _ => none

-- Only routines and properties reach the host; what they do to it stays done.
def folding (action : Run σ T) : StateM σ (Option (Replacement T σ)) := do
  return folded? (← action.run)

def constants? (cells : Cells T σ) (args : List Nat) : Option (List T) :=
  args.mapM cells.constantAt?

def rewrite? (cells : Cells T σ) : Shape T σ Nat → StateM σ (Option (Replacement T σ))
  | .constant _ _ | .parameter _ => return none
  | .member source => if source.isReadOnly then folding source.read else return none
  | .unary op operand _ =>
      match cells.constantAt? operand with
      | some value => return folded? (Numeric.unary op value)
      | none => return none
  | .binary op left right span =>
      match cells.constantAt? left, cells.constantAt? right with
      | some a, some b => return folded? (Numeric.binary op a b)
      | some a, none => return leftIdentity? op a left right span
      | none, some b => return rightIdentity? op b left right span
      | none, none => return none
  | .convert conversion operand _ =>
      if conversion.isNoop T then
        return some (.existing operand)
      else
        match cells.constantAt? operand with
        | some value => return folded? (conversion.apply value)
        | none => return none
  | .call routine args _ =>
      if routine.isFoldable then
        match constants? cells args with
        | some values => folding (routine.call values)
        | none => return none
      else
        return none
  | .conditional condition accepted rejected =>
      match cells.constantAt? condition with
      | some value =>
          return some (.existing (if Numeric.isTruthy value then accepted else rejected))
      | none => return none

end Rewrite

end Formula
