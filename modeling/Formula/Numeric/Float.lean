import Formula.Numeric
import Formula.Numeric.Binary64
import Formula.Numeric.Decimal

set_option autoImplicit false

namespace Formula.Binary64

def ofDigits (text : List Char) : Float :=
  let isMark (c : Char) : Bool := c = 'e' || c = 'E'
  let (mantissa, tail) := (Decimal.cut? isMark text).getD (text, [])
  let (whole, fraction) := (Decimal.cut? (· = '.') mantissa).getD (mantissa, [])
  let (negative, digits) := Numeric.splitSign tail
  let size : Int := Literal.value 10 digits
  ofDecimal (Literal.value 10 (whole ++ fraction))
    ((if negative then -size else size) - (fraction.length : Int))

def read (text : List Char) (start : Nat) : Except String (Option (Float × Nat)) :=
  match Literal.at? text start with
  | none => .ok none
  | some found =>
      match found.shape with
      | .integer | .real => .ok (some (ofDigits found.text, found.stop))
      | .hex =>
          let pattern := Literal.value 16 (found.text.drop 2)
          if pattern < Nat.pow 2 64 then
            .ok (some (Float.ofNat pattern, found.stop))
          else
            .error s!"hexadecimal literal '{String.ofList found.text}' is too large"

-- Shifts multiply and divide by a power of two, whole or not.
def binary (op : BinaryOperator) (x y : Float) : Except EvalError Float :=
  match op with
  | .add => .ok (x + y)
  | .sub => .ok (x - y)
  | .mul => .ok (x * y)
  | .div => .ok (x / y)
  | .rem => .ok (remainder x y)
  | .pow => .ok (x.pow y)
  | .shl => .ok (x * Float.pow 2 y)
  | .shr => .ok (x / Float.pow 2 y)
  | .bitOr | .bitAnd | .bitXor => .error (.unsupported op.symbol "f64")

def unary (op : UnaryOperator) (x : Float) : Except EvalError Float :=
  match op with
  | .negate => .ok (-x)
  | .complement => .error (.unsupported op.symbol "f64")

def checkedTruncate (x : Float) : Except EvalError Float :=
  if x.isNaN || x.isInf then
    .error (.domain s!"cannot truncate non-finite value {display x}")
  else
    .ok (truncate x)

instance : Numeric Float where
  name := "f64"
  supported := Decimal.flags
  defaults := Decimal.flags
  signed := true
  integral := false
  zero := 0
  one := 1
  minusOne := some (-1)
  same x y := x.toBits = y.toBits
  equal x y := x == y
  less x y := x < y
  display := display
  read text start _ := read text start
  binary := binary
  unary := unary
  truncate := checkedTruncate

end Formula.Binary64
