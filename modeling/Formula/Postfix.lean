import Formula.Error.Eval

set_option autoImplicit false

namespace Formula.Postfix

-- How the tokens of a kind build values. An operand stands alone; another token takes values from
-- the top of a stack, which comes first in the list, and leaves the rest.
structure Builder (Tok E N : Type) where
  isOperand : Tok → Bool
  leaf : Tok → Except E N
  node : Tok → List N → Except E (N × List N)

inductive Failure (Tok E : Type) where
  | stream (error : E)
  | build (token : Tok) (error : E)
  -- Some number of values other than one was left.
  | leftover (count : Nat)

variable {Tok E N : Type}

def push (builder : Builder Tok E N) (token : Tok) (stack : List N) : Except E (List N) :=
  if builder.isOperand token then
    (builder.leaf token).map (· :: stack)
  else
    (builder.node token stack).map fun (value, rest) => value :: rest

def foldFrom (builder : Builder Tok E N) (stack : List N) :
    List (Except E Tok) → Except (Failure Tok E) N
  | [] =>
      match stack with
      | [value] => .ok value
      | _ => .error (.leftover stack.length)
  | .error error :: _ => .error (.stream error)
  | .ok token :: rest =>
      match push builder token stack with
      | .ok stack => foldFrom builder stack rest
      | .error error => .error (.build token error)

def fold (builder : Builder Tok E N) (items : List (Except E Tok)) : Except (Failure Tok E) N :=
  foldFrom builder [] items

def leftoverError : Nat → EvalError
  | 0 => .malformed "the expression is empty"
  | count => .malformed s!"{count} values are left without an operator to combine them"

end Formula.Postfix
