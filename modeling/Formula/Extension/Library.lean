import Formula.Extension
import Formula.Numeric.Decimal
import Formula.Numeric.Float

set_option autoImplicit false

namespace Formula.Library

variable {T σ : Type}

def plain (body : List T → Except EvalError T) (args : List T) : Run σ T :=
  Run.ofExcept (body args)

section

variable [Numeric T]

def argument (args : List T) (index : Nat) : T := args.getD index Numeric.zero

def abs (value : T) : Except EvalError T :=
  if Numeric.less value Numeric.zero then Numeric.unary .negate value else .ok value

-- Of two values that do not compare, the first is both.
def lesser (a b : T) : T := if Numeric.less b a then b else a

def greater (a b : T) : T := if Numeric.less a b then b else a

def sign (value : T) : Except EvalError T :=
  if Numeric.less Numeric.zero value then .ok Numeric.one
  else if Numeric.less value Numeric.zero then
    match (Numeric.minusOne : Option T) with
    | some result => .ok result
    | none => .error .overflow
  else .ok value

def clamp (value low high : T) : Except EvalError T :=
  if Numeric.less high low then
    .error (.domain
      s!"clamp bounds are reversed: {Numeric.display low} > {Numeric.display high}")
  else if Numeric.less value low then .ok low
  else if Numeric.less high value then .ok high
  else .ok value

def common : Extension T σ :=
  (Extension.empty "common")
    |>.function "abs" 1 (plain fun args => abs (argument args 0))
    |>.function "min" 2 (plain fun args => .ok (lesser (argument args 0) (argument args 1)))
    |>.function "max" 2 (plain fun args => .ok (greater (argument args 0) (argument args 1)))
    |>.function "sign" 1 (plain fun args => sign (argument args 0))
    |>.function "clamp" 3
      (plain fun args => clamp (argument args 0) (argument args 1) (argument args 2))

end

def addFloat (extension : Extension Float σ) :
    String × Nat × (Float → Float → Float) → Extension Float σ
  | (name, arity, body) =>
      extension.function name arity
        (plain fun args => .ok (body (argument args 0) (argument args 1)))

def floatRoutines : List (String × Nat × (Float → Float → Float)) :=
  [("sqrt", 1, fun x _ => x.sqrt), ("exp", 1, fun x _ => x.exp), ("ln", 1, fun x _ => x.log),
    ("log10", 1, fun x _ => x.log10), ("log", 2, fun x y => x.log / y.log),
    ("sin", 1, fun x _ => x.sin), ("cos", 1, fun x _ => x.cos), ("tan", 1, fun x _ => x.tan),
    ("asin", 1, fun x _ => x.asin), ("acos", 1, fun x _ => x.acos),
    ("atan", 1, fun x _ => x.atan), ("atan2", 2, Float.atan2),
    ("floor", 1, fun x _ => x.floor), ("ceil", 1, fun x _ => x.ceil),
    ("round", 1, fun x _ => x.round), ("hypot", 2, Binary64.hypotenuse)]

def floatMath : Extension Float σ :=
  let constants := (Extension.empty "math")
    |>.constant "Pi" (Float.ofBits 0x400921FB54442D18)
    |>.constant "E" (Float.ofBits 0x4005BF0A8B145769)
    |>.constant "Tau" (Float.ofBits 0x401921FB54442D18)
  (floatRoutines.foldl addFloat constants).merge common

def fraction (args : List Rat) : Except EvalError Rat :=
  Numeric.binary .div (argument args 0) (argument args 1)

def decimalMath : Extension Rat σ :=
  ((Extension.empty "decimal")
    |>.constructor "frac" 2 (plain fraction)
    |>.function "floor" 1 (plain fun args => .ok ((argument args 0).floor : Int))
    |>.function "ceil" 1 (plain fun args => .ok ((argument args 0).ceil : Int))).merge common

end Formula.Library
