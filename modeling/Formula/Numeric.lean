import Formula.Error.Eval
import Formula.Flags
import Formula.Literal
import Formula.Operator
import Formula.Text.Case

set_option autoImplicit false

namespace Formula

class Numeric (T : Type) where
  name : String
  supported : Flags
  defaults : Flags
  signed : Bool
  -- Every value is integral, so `trunc` changes none.
  integral : Bool
  zero : T
  one : T
  minusOne : Option T
  -- The equality that lets two constants be one node; it may be finer than `equal`.
  same : T → T → Bool
  equal : T → T → Bool
  less : T → T → Bool
  display : T → String
  read : List Char → Nat → Flags → Except String (Option (T × Nat))
  binary : BinaryOperator → T → T → Except EvalError T
  unary : UnaryOperator → T → Except EvalError T
  truncate : T → Except EvalError T

namespace Numeric

variable {T : Type} [Numeric T]

def isZero (x : T) : Bool := equal x zero

def isOne (x : T) : Bool := equal x one

def isMinusOne (x : T) : Bool :=
  match (minusOne : Option T) with
  | none => false
  | some m => equal x m

def isTruthy (x : T) : Bool := !isZero x

end Numeric

def Conversion.apply {T : Type} [Numeric T] : Conversion → T → Except EvalError T
  | identity, x => .ok x
  | integral, x => Numeric.truncate x

def Conversion.isNoop (T : Type) [Numeric T] : Conversion → Bool
  | identity => true
  | integral => Numeric.integral T

namespace Numeric

variable {T : Type} [Numeric T]

def trim (text : List Char) : List Char :=
  ((text.dropWhile Text.isWhiteSpace).reverse.dropWhile Text.isWhiteSpace).reverse

def splitSign : List Char → Bool × List Char
  | '-' :: rest => (true, rest)
  | '+' :: rest => (false, rest)
  | text => (false, text)

-- Reads a whole text as one value with at most one sign.
def parse (T : Type) [Numeric T] (text : String) : Except String T := do
  let trimmed := trim text.toList
  let (negative, digits) := splitSign trimmed
  match ← read digits 0 (supported T) with
  | some (value, stop) =>
      if stop = Text.width digits then
        if negative then
          match unary .negate value with
          | .ok result => .ok result
          | .error error =>
              throw s!"cannot negate '{String.ofList digits}': {error.message}"
        else
          return value
      else
        throw s!"'{String.ofList trimmed}' is not a valid {name T} value"
  | none => throw s!"'{String.ofList trimmed}' is not a valid {name T} value"

end Numeric

end Formula
