import Formula.Span
import Formula.Text.Caret

set_option autoImplicit false

namespace Formula

inductive EvalError where
  | divisionByZero
  | overflow
  | domain (details : String)
  | unsupported (operator typeName : String)
  | unknownIdentifier (name : String)
  | argumentCount (name : String) (expected found : Nat)
  | inputCount (expected found : Nat)
  | malformed (details : String)
  | extension (name details : String)
  | located (span : Span) (source : EvalError)
deriving DecidableEq, Repr, Inhabited

namespace EvalError

def message : EvalError → String
  | divisionByZero => "division by zero"
  | overflow => "arithmetic overflow"
  | domain details => details
  | unsupported operator typeName => s!"operator '{operator}' is not supported by {typeName}"
  | unknownIdentifier name => s!"unknown identifier '{name}'"
  | argumentCount name expected found =>
      s!"'{name}' expects {expected} argument(s) but was given {found}"
  | inputCount expected found => s!"expected {expected} input value(s) but was given {found}"
  | malformed details => s!"malformed expression: {details}"
  | extension name details => s!"{name}: {details}"
  | located span source => s!"{source.message} at {span.display}"

def root : EvalError → EvalError
  | located _ source => source.root
  | error => error

def span? : EvalError → Option Span
  | located span _ => some span
  | _ => none

-- The innermost place says most, so a located error stays where it is.
def locate (error : EvalError) (span : Span) : EvalError :=
  match error with
  | located _ _ => error
  | _ => located span error

def render (error : EvalError) (expression : String) : String :=
  match error.span? with
  | none => error.message
  | some span => error.message ++ "\n" ++ Text.caretLine expression span.start (some span.stop)

end EvalError

end Formula
