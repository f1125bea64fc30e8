set_option autoImplicit false

namespace Formula

inductive BinaryOperator where
  | add | sub | mul | div | rem
  | pow
  | shl | shr
  | bitOr | bitAnd | bitXor
deriving DecidableEq, Repr

-- Power and exclusive or are never in one grammar, so they can share a spelling.
def BinaryOperator.symbol : BinaryOperator → String
  | add => "+"
  | sub => "-"
  | mul => "*"
  | div => "/"
  | rem => "%"
  | pow | bitXor => "^"
  | shl => "<<"
  | shr => ">>"
  | bitOr => "|"
  | bitAnd => "&"

inductive UnaryOperator where
  | negate
  | complement
deriving DecidableEq, Repr

def UnaryOperator.symbol : UnaryOperator → String
  | negate => "-"
  | complement => "~"

inductive Conversion where
  | identity
  | integral
deriving DecidableEq, Repr

end Formula
