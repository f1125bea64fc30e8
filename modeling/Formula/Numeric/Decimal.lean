import Formula.Numeric
import Formula.Numeric.Digits

set_option autoImplicit false

namespace Formula.Decimal

-- The largest exponent, up to its sign, of a power, a shift or a literal.
def maxExponent : Nat := 4096

-- The smallest integer of 32 bits, which has no magnitude among them.
def leastExponent : Int := -2147483648

-- The most bits that a power or a shift may need above or below the fraction bar.
def maxResultBits : Nat := 1048576

def sign (x : Rat) : String := if x.num < 0 then "-" else ""

def digitText (n : Nat) : String := String.ofList (Digits.write n)

def display (x : Rat) : String :=
  let numerator := sign x ++ digitText x.num.natAbs
  if x.den = 1 then numerator else numerator ++ "/" ++ digitText x.den

def bitLength (n : Nat) : Nat := if n = 0 then 0 else n.log2 + 1

def magnitudeBits (x : Rat) : Nat := max (bitLength x.num.natAbs) (bitLength x.den)

def narrow? (n : Int) : Option Int32 :=
  if h : Int32.minValue.toInt ≤ n ∧ n ≤ Int32.maxValue.toInt then some (.ofIntLE n h.1 h.2) else none

-- Arithmetic wraps, so the smallest integer of 32 bits is taken for its own magnitude and passes. A build that checks
-- for overflow stops at it instead.
def limited? (n : Int) : Option Int32 := (narrow? n).filter fun exponent => exponent.abs.toInt ≤ maxExponent

def integralExponent (x : Rat) (op : BinaryOperator) : Except EvalError Int :=
  if x.den ≠ 1 then
    .error (.domain s!"'{op.symbol}' requires an integral exponent, got {display x}")
  else
    match limited? x.num with
    | some exponent => .ok exponent.toInt
    | none => .error (.domain s!"exponent {display x} of '{op.symbol}' is too large")

def checkBits (bits : Nat) (op : BinaryOperator) : Except EvalError Unit :=
  if maxResultBits < bits then
    .error (.domain s!"result of '{op.symbol}' would exceed {maxResultBits} bits")
  else
    .ok ()

def power (x : Rat) (exponent : Int) : Rat :=
  if exponent < 0 then x⁻¹ ^ exponent.natAbs else x ^ exponent.natAbs

def truncate (x : Rat) : Rat := (x.num.tdiv x.den : Int)

-- The exponent and the size of the result are checked before anything is computed.
def checkedPower (x y : Rat) : Except EvalError Rat := do
  let exponent ← integralExponent y .pow
  if exponent < 0 ∧ x = 0 then throw .divisionByZero
  checkBits (magnitudeBits x * exponent.natAbs) .pow
  return power x exponent

def checkedShift (op : BinaryOperator) (x y : Rat) : Except EvalError Int := do
  let exponent ← integralExponent y op
  checkBits (magnitudeBits x + exponent.natAbs) op
  return exponent

def binary (op : BinaryOperator) (x y : Rat) : Except EvalError Rat :=
  match op with
  | .add => .ok (x + y)
  | .sub => .ok (x - y)
  | .mul => .ok (x * y)
  | .div => if y = 0 then .error .divisionByZero else .ok (x / y)
  | .rem => if y = 0 then .error .divisionByZero else .ok (x - y * truncate (x / y))
  | .pow => checkedPower x y
  | .shl => (checkedShift op x y).map fun exponent => x * power 2 exponent
  | .shr => (checkedShift op x y).map fun exponent => x / power 2 exponent
  | .bitOr | .bitAnd | .bitXor => .error (.unsupported op.symbol "decimal")

def unary (op : UnaryOperator) (x : Rat) : Except EvalError Rat :=
  match op with
  | .negate => .ok (-x)
  | .complement => .error (.unsupported op.symbol "decimal")

def exponent? (text : List Char) : Option Int32 :=
  let (negative, digits) := Numeric.splitSign text
  if digits.isEmpty || !digits.all Literal.isDigit then
    none
  else
    let size : Int := Literal.value 10 digits
    narrow? (if negative then -size else size)

-- Digits may be grouped by `_`, and a plus sign may follow a minus sign only as an error.
def unsignedDigits? (text : List Char) : Option Nat :=
  let digits :=
    match text with
    | '+' :: rest => if rest.head? = some '+' then text else rest
    | _ => text
  if digits.isEmpty || digits.head? = some '_' ||
      !digits.all (fun c => Literal.isDigit c || c = '_') then
    none
  else
    some (Literal.value 10 (digits.filter Literal.isDigit))

def digits? (text : List Char) : Option Int :=
  match text with
  | '-' :: rest =>
      if rest.head? = some '+' then none else (unsignedDigits? rest).map fun n => -(n : Int)
  | _ => (unsignedDigits? text).map fun n => (n : Int)

def cut? (isMark : Char → Bool) : List Char → Option (List Char × List Char)
  | [] => none
  | c :: rest =>
      if isMark c then some ([], rest)
      else (cut? isMark rest).map fun (before, after) => (c :: before, after)

-- Reads digits with an optional fraction and exponent, without rounding.
def parse? (text : List Char) : Option Rat := do
  let (mantissa, exponent) ←
    match cut? (fun c => c = 'e' || c = 'E') text with
    | some (mantissa, tail) => (exponent? tail).map fun e => (mantissa, e)
    | none => some (text, 0)
  let (whole, fraction) := (cut? (· = '.') mantissa).getD (mantissa, [])
  let numerator ← digits? (whole ++ fraction)
  let places ← narrow? (Text.width fraction)
  let scale ← limited? (exponent.toInt - places.toInt)
  return (numerator : Rat) * power 10 scale.toInt

def read (text : List Char) (start : Nat) : Except String (Option (Rat × Nat)) :=
  match Literal.at? text start with
  | none => .ok none
  | some found =>
      let value :=
        match found.shape with
        | .hex => some ((Literal.value 16 (found.text.drop 2) : Nat) : Rat)
        | .integer | .real => parse? found.text
      match value with
      | some value => .ok (some (value, found.stop))
      | none => .error s!"invalid decimal literal '{String.ofList found.text}'"

-- Long division of `remainder` by `divisor`: the digits after the point and what is left.
def expand (divisor : Nat) : Nat → Nat → List Char × Nat
  | 0, remainder => ([], remainder)
  | digits + 1, remainder =>
      if remainder = 0 then
        ([], 0)
      else
        let scaled := remainder * 10
        let (rest, left) := expand divisor digits (scaled % divisor)
        (Char.ofNat ('0'.toNat + scaled / divisor) :: rest, left)

-- A decimal of at most `maxDigits` places where the number is one, and a fraction elsewhere.
def format (x : Rat) (maxDigits : Nat) : String :=
  if x.den = 1 then
    display x
  else
    let (digits, left) := expand x.den maxDigits (x.num.natAbs % x.den)
    if left ≠ 0 then
      display x
    else
      sign x ++ digitText (x.num.natAbs / x.den) ++ "." ++ String.ofList digits

def flags : Flags := ⟨true, true, false, false⟩

instance : Numeric Rat where
  name := "decimal"
  supported := flags
  defaults := flags
  signed := true
  integral := false
  zero := 0
  one := 1
  minusOne := some (-1)
  same x y := x = y
  equal x y := x = y
  less x y := x < y
  display := display
  read text start _ := read text start
  binary := binary
  unary := unary
  truncate x := .ok (truncate x)

end Formula.Decimal
