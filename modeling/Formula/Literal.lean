import Formula.Text.Offset

set_option autoImplicit false

namespace Formula.Literal

-- `0xFF`, then anything with a fraction or an exponent, then plain digits.
inductive Shape where
  | hex
  | real
  | integer
deriving DecidableEq, Repr

def isDigit (c : Char) : Bool := '0' ≤ c && c ≤ '9'

def isHexDigit (c : Char) : Bool :=
  isDigit c || ('a' ≤ c && c ≤ 'f') || ('A' ≤ c && c ≤ 'F')

def countWhile (keep : Char → Bool) (text : List Char) : Nat :=
  (text.takeWhile keep).length

def exponentLength : List Char → Nat
  | [] => 0
  | mark :: rest =>
      if mark = 'e' || mark = 'E' then
        match rest with
        | [] => 0
        | sign :: more =>
            if sign = '+' || sign = '-' then
              let digits := countWhile isDigit more
              if digits = 0 then 0 else digits + 2
            else
              let digits := countWhile isDigit rest
              if digits = 0 then 0 else digits + 1
      else
        0

def fractionLength : List Char → Nat
  | [] => 0
  | point :: rest =>
      if point = '.' then
        let digits := countWhile isDigit rest
        if digits = 0 then 0 else digits + 1
      else
        0

def hexLength : List Char → Nat
  | zero :: mark :: rest =>
      if zero = '0' && (mark = 'x' || mark = 'X') then
        let digits := countWhile isHexDigit rest
        if digits = 0 then 0 else digits + 2
      else
        0
  | _ => 0

-- A part that does not complete is not begun: `1e+` is the integer `1`.
def scan (text : List Char) : Option (Shape × Nat) :=
  let hex := hexLength text
  if hex ≠ 0 then
    some (.hex, hex)
  else
    let whole := countWhile isDigit text
    let fraction := fractionLength (text.drop whole)
    let mantissa := whole + fraction
    if mantissa = 0 then
      none
    else
      let exponent := exponentLength (text.drop mantissa)
      if fraction = 0 ∧ exponent = 0 then some (.integer, whole)
      else some (.real, mantissa + exponent)

structure Found where
  shape : Shape
  text : List Char
  stop : Nat

def at? (text : List Char) (start : Nat) : Option Found := do
  let rest ← Text.dropBytes? start text
  let (shape, length) ← scan rest
  return ⟨shape, rest.take length, start + length⟩

def digitValue (c : Char) : Nat :=
  if isDigit c then c.toNat - '0'.toNat
  else if 'a' ≤ c && c ≤ 'f' then c.toNat - 'a'.toNat + 10
  else c.toNat - 'A'.toNat + 10

def value (base : Nat) (digits : List Char) : Nat :=
  digits.foldl (fun n c => n * base + digitValue c) 0

end Formula.Literal
