/-!
Binary floating point up close: a finite number is a whole mantissa times a power of two, and its
text and its remainder are decided on whole numbers.
-/

set_option autoImplicit false

namespace Formula.Binary64

def isNegative (x : Float) : Bool := x.toBits.toNat / Nat.pow 2 63 = 1

def implicitBit : Nat := 4503599627370496

-- The magnitude of a finite number is the mantissa times two to the exponent.
def mantissa (x : Float) : Nat :=
  let bits := x.toBits.toNat
  let fraction := bits % implicitBit
  if bits / implicitBit % 2048 = 0 then fraction else fraction + implicitBit

def exponent (x : Float) : Int :=
  let field := x.toBits.toNat / implicitBit % 2048
  (max field 1 : Nat) - 1075

-- A whole number of quarters of the last place, over a power of two.
structure Neighbourhood where
  low : Nat
  value : Nat
  high : Nat
  scale : Nat
  -- The ends round to the number too.
  closed : Bool

-- The gap below a power of two is half the gap above it.
def neighbourhood (m : Nat) (q : Int) : Neighbourhood :=
  let up := Nat.pow 2 (q - 2).toNat
  let low := if m = implicitBit ∧ -1074 < q then 4 * m - 1 else 4 * m - 2
  ⟨low * up, 4 * m * up, (4 * m + 2) * up, Nat.pow 2 (2 - q).toNat, m % 2 = 0⟩

def Neighbourhood.holds (n : Neighbourhood) (count : Nat) (place : Int) : Bool :=
  let point := count * Nat.pow 10 place.toNat * n.scale
  let low := n.low * Nat.pow 10 (-place).toNat
  let high := n.high * Nat.pow 10 (-place).toNat
  if n.closed then low ≤ point && point ≤ high else low < point && point < high

-- Of the two points of a grid beside the number, the nearer that reads back; a tie goes up.
def Neighbourhood.nearest? (n : Neighbourhood) (place : Int) : Option Nat :=
  let unit := Nat.pow 10 place.toNat * n.scale
  let value := n.value * Nat.pow 10 (-place).toNat
  let below := value / unit
  let left := value - below * unit
  let right := unit - left
  match n.holds below place, n.holds (below + 1) place with
  | true, true => some (if left < right then below else below + 1)
  | true, false => some below
  | false, true => some (below + 1)
  | false, false => none

def Neighbourhood.places (n : Neighbourhood) : Int :=
  if n.scale ≤ n.value then
    ((Nat.toDigits 10 (n.value / n.scale)).length : Int)
  else
    2 - ((Nat.toDigits 10 (n.scale / n.value)).length : Int)

def Neighbourhood.shortest (n : Neighbourhood) : Nat × Int :=
  let place (digits : Nat) : Int := n.places - (digits + 1 : Nat)
  match (List.range 18).findSome? fun digits =>
      (n.nearest? (place digits)).map fun count => (count, place digits) with
  | some found => found
  | none => (0, 0)

def positional (count : Nat) (place : Int) : String :=
  let digits := Nat.toDigits 10 count
  if 0 ≤ place then
    String.ofList (digits ++ List.replicate place.toNat '0')
  else
    let places := (-place).toNat
    let padded := List.replicate (places + 1 - digits.length) '0' ++ digits
    let whole := padded.take (padded.length - places)
    let fraction := padded.drop (padded.length - places)
    let kept := (fraction.reverse.dropWhile (· = '0')).reverse
    String.ofList (whole ++ if kept.isEmpty then [] else '.' :: kept)

def display (x : Float) : String :=
  if x.isNaN then
    "NaN"
  else
    let sign := if isNegative x then "-" else ""
    if x.isInf then
      sign ++ "inf"
    else if mantissa x = 0 then
      sign ++ "0"
    else
      let (count, place) := (neighbourhood (mantissa x) (exponent x)).shortest
      sign ++ positional count place

def infinity : Float := Float.ofBits 0x7ff0000000000000

def nan : Float := Float.ofBits 0x7ff8000000000000

def ofDecimal (digits : Nat) (place : Int) : Float :=
  let size := place + ((Nat.toDigits 10 digits).length : Int)
  if digits = 0 then 0
  else if 310 < size then infinity
  else if size < -330 then 0
  else if 0 ≤ place then Float.ofScientific digits false place.toNat
  else Float.ofScientific digits true (-place).toNat

def withSign (negative : Bool) (x : Float) : Float := if negative then -x else x

-- The remainder of a division whose quotient is cut toward zero; no rounding happens.
def remainder (x y : Float) : Float :=
  if x.isNaN || y.isNaN || x.isInf || mantissa y = 0 then
    nan
  else if y.isInf then
    x
  else
    let common := min (exponent x) (exponent y)
    let a := mantissa x * Nat.pow 2 (exponent x - common).toNat
    let b := mantissa y * Nat.pow 2 (exponent y - common).toNat
    withSign (isNegative x) (Float.scaleB (Float.ofNat (a % b)) common)

def truncate (x : Float) : Float := if isNegative x then x.ceil else x.floor

-- The legs' square root, mended by what its square misses; the legs neither overflow nor vanish when
-- they are squared.
def mendedRoot (long short : Float) : Float :=
  let h := (long * long + short * short).sqrt
  let missed :=
    if h ≤ 2 * short then
      let d := h - short
      long * (2 * d - long) + (d - 2 * (long - short)) * d
    else
      let d := h - long
      2 * d * (long - 2 * short) + ((4 * d - short) * short + d * d)
  h - missed / (2 * h)

-- The length of a vector. Legs near either end of the range are brought to the middle first, and a
-- leg too short to matter is only added.
def hypotenuse (x y : Float) : Float :=
  let a := x.abs
  let b := y.abs
  if a.isInf || b.isInf then infinity
  else if a.isNaN || b.isNaN then nan
  else
    let long := if a < b then b else a
    let short := if a < b then a else b
    if short.scaleB 54 ≤ long then long + short
    else if Float.scaleB 1 511 < long then
      (mendedRoot (long.scaleB (-600)) (short.scaleB (-600))).scaleB 600
    else if short < Float.scaleB 1 (-459) then
      (mendedRoot (long.scaleB 600) (short.scaleB 600)).scaleB (-600)
    else mendedRoot long short

end Formula.Binary64
