import Formula.Host
import Formula.Numeric

/-!
One layer of an expression. A shape says what a node does and leaves open what its children are:
whole expressions, positions in a table, or what the children have been worth. The meanings of a
node are functions from shapes over meanings to meanings, so that a tree and a table share them.
-/

set_option autoImplicit false

namespace Formula

inductive Shape (T σ ι : Type) where
  -- The name is that of a registered constant, when the value was written by it.
  | constant (value : T) (name : Option String)
  | parameter (index : Nat)
  | member (source : Member T σ)
  | unary (op : UnaryOperator) (operand : ι) (span : Span)
  | binary (op : BinaryOperator) (left right : ι) (span : Span)
  | convert (conversion : Conversion) (operand : ι) (span : Span)
  | call (routine : Routine T σ) (args : List ι) (span : Span)
  | conditional (condition accepted rejected : ι)

abbrev Program (T σ : Type) := List T → Run σ T

namespace Shape

variable {T σ ι κ : Type}

def map (f : ι → κ) : Shape T σ ι → Shape T σ κ
  | constant value name => constant value name
  | parameter index => parameter index
  | member source => member source
  | unary op operand span => unary op (f operand) span
  | binary op left right span => binary op (f left) (f right) span
  | convert conversion operand span => convert conversion (f operand) span
  | call routine args span => call routine (args.map f) span
  | conditional condition accepted rejected =>
      conditional (f condition) (f accepted) (f rejected)

def children : Shape T σ ι → List ι
  | constant _ _ | parameter _ | member _ => []
  | unary _ operand _ | convert _ operand _ => [operand]
  | binary _ left right _ => [left, right]
  | call _ args _ => args
  | conditional condition accepted rejected => [condition, accepted, rejected]

def count (shape : Shape T σ Nat) : Nat := 1 + shape.children.foldr (· + ·) 0

def renderCall (name : String) (args : List String) : String :=
  name ++ "(" ++ ", ".intercalate args ++ ")"

-- Binary nodes are always bracketed and unary ones never are.
def render [Numeric T] (names : List String) : Shape T σ String → String
  | constant value _ => Numeric.display value
  | parameter index => names.getD index s!"${index}"
  | member source => source.name
  | unary op operand _ => op.symbol ++ operand
  | binary op left right _ => "(" ++ left ++ " " ++ op.symbol ++ " " ++ right ++ ")"
  | convert .identity operand _ => "+" ++ operand
  | convert .integral operand _ => renderCall "trunc" [operand]
  | call routine args _ => renderCall routine.name args
  | conditional condition accepted rejected => renderCall "if" [condition, accepted, rejected]

def locate (span : Span) (action : Run σ T) : Run σ T :=
  tryCatch action fun error => throw (error.locate span)

def runAll (inputs : List T) : List (Program T σ) → Run σ (List T)
  | [] => return []
  | arg :: rest => do
      let value ← arg inputs
      let values ← runAll inputs rest
      return value :: values

-- Operands run from left to right, and of a conditional only the case that is selected runs.
def run [Numeric T] : Shape T σ (Program T σ) → Program T σ
  | constant value _, _ => return value
  | parameter index, inputs =>
      match inputs[index]? with
      | some value => return value
      | none => throw (.malformed s!"no input value for parameter {index}")
  | member source, _ => source.read
  | unary op operand span, inputs => do
      let value ← operand inputs
      locate span (Run.ofExcept (Numeric.unary op value))
  | binary op left right span, inputs => do
      let a ← left inputs
      let b ← right inputs
      locate span (Run.ofExcept (Numeric.binary op a b))
  | convert conversion operand span, inputs => do
      let value ← operand inputs
      locate span (Run.ofExcept (conversion.apply value))
  | call routine args span, inputs => do
      let values ← runAll inputs args
      locate span (routine.call values)
  | conditional condition accepted rejected, inputs => do
      let value ← condition inputs
      if Numeric.isTruthy value then accepted inputs else rejected inputs

end Shape

end Formula
