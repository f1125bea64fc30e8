import Formula.Numeric

set_option autoImplicit false

namespace Formula

inductive Signedness where
  | signed
  | unsigned
deriving DecidableEq, Repr

namespace Signedness

def low : Signedness → Int
  | signed => -9223372036854775808
  | unsigned => 0

def high : Signedness → Int
  | signed => 9223372036854775807
  | unsigned => 18446744073709551615

def typeName : Signedness → String
  | signed => "i64"
  | unsigned => "u64"

end Signedness

structure Integer (s : Signedness) where
  value : Int
  low_le : s.low ≤ value
  le_high : value ≤ s.high
deriving DecidableEq

namespace Integer

variable {s : Signedness}

def ofInt? (s : Signedness) (n : Int) : Option (Integer s) :=
  if h : s.low ≤ n ∧ n ≤ s.high then some ⟨n, h.1, h.2⟩ else none

def checked (s : Signedness) (n : Int) : Except EvalError (Integer s) :=
  match ofInt? s n with
  | some result => .ok result
  | none => .error .overflow

def toBits (n : Integer s) : BitVec 64 := BitVec.ofInt 64 n.value

theorem signed_bits_range (bits : BitVec 64) :
    Signedness.signed.low ≤ bits.toInt ∧ bits.toInt ≤ Signedness.signed.high := by
  have lower := BitVec.le_toInt bits
  have upper := BitVec.toInt_lt (x := bits)
  simp only [Signedness.low, Signedness.high]
  omega

theorem unsigned_bits_range (bits : BitVec 64) :
    Signedness.unsigned.low ≤ (bits.toNat : Int) ∧ (bits.toNat : Int) ≤ Signedness.unsigned.high := by
  have upper := bits.isLt
  simp only [Signedness.low, Signedness.high]
  omega

def ofBits (s : Signedness) (bits : BitVec 64) : Integer s :=
  match s with
  | .signed => ⟨bits.toInt, (signed_bits_range bits).1, (signed_bits_range bits).2⟩
  | .unsigned => ⟨bits.toNat, (unsigned_bits_range bits).1, (unsigned_bits_range bits).2⟩

-- Only the low six bits of a shift count are read.
def shiftCount (n : Integer s) : Nat := n.toBits.toNat % 64

def shiftRight (a b : Integer s) : Integer s :=
  match s with
  | .signed => ofBits .signed (a.toBits.sshiftRight b.shiftCount)
  | .unsigned => ofBits .unsigned (a.toBits >>> b.shiftCount)

def divide (a b : Integer s) : Except EvalError (Integer s) :=
  if b.value = 0 then .error .divisionByZero else checked s (a.value.tdiv b.value)

-- A remainder whose quotient leaves the range is refused with it.
def remainder (a b : Integer s) : Except EvalError (Integer s) := do
  let _ ← divide a b
  checked s (a.value.tmod b.value)

def binary (op : BinaryOperator) (a b : Integer s) : Except EvalError (Integer s) :=
  match op with
  | .add => checked s (a.value + b.value)
  | .sub => checked s (a.value - b.value)
  | .mul => checked s (a.value * b.value)
  | .div => divide a b
  | .rem => remainder a b
  | .pow => .error (.unsupported op.symbol s.typeName)
  | .shl => .ok (ofBits s (a.toBits <<< b.shiftCount))
  | .shr => .ok (shiftRight a b)
  | .bitOr => .ok (ofBits s (a.toBits ||| b.toBits))
  | .bitAnd => .ok (ofBits s (a.toBits &&& b.toBits))
  | .bitXor => .ok (ofBits s (a.toBits ^^^ b.toBits))

def unary (op : UnaryOperator) (a : Integer s) : Except EvalError (Integer s) :=
  match op with
  | .negate => checked s (-a.value)
  | .complement => .ok (ofBits s (~~~ a.toBits))

-- Hexadecimal digits are a pattern of 64 bits, so they can spell a negative integer.
def ofLiteral? (s : Signedness) (shape : Literal.Shape) (text : List Char) : Option (Integer s) :=
  match shape with
  | .integer => ofInt? s (Literal.value 10 text)
  | .hex =>
      let pattern := Literal.value 16 (text.drop 2)
      if (pattern : Int) ≤ Signedness.unsigned.high then some (ofBits s (BitVec.ofNat 64 pattern)) else none
  | .real => none

def read (s : Signedness) (text : List Char) (start : Nat) :
    Except String (Option (Integer s × Nat)) :=
  match Literal.at? text start with
  | none => .ok none
  | some found =>
      match found.shape, ofLiteral? s found.shape found.text with
      | _, some value => .ok (some (value, found.stop))
      | .real, none =>
          .error s!"fractional literal '{String.ofList found.text}' is not allowed for {s.typeName}"
      | _, none =>
          .error s!"literal '{String.ofList found.text}' does not fit in {s.typeName}"

def flags : Flags := ⟨true, false, true, false⟩

instance : Numeric (Integer s) where
  name := s.typeName
  supported := flags
  defaults := flags
  signed := s = .signed
  integral := true
  zero := ofBits s 0
  one := ofBits s 1
  minusOne := ofInt? s (-1)
  same a b := a = b
  equal a b := a = b
  less a b := a.value < b.value
  display a := toString a.value
  read text start _ := read s text start
  binary := binary
  unary := unary
  truncate a := .ok a

end Integer

end Formula
