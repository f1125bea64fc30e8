import Formula.Error.Eval
import Formula.Error.Parse
import Formula.Flags

set_option autoImplicit false

namespace Formula

inductive GrammarError where
  | conflictingFlags (flags : Flags)
  | unsupportedFlags (typeName : String) (requested supported : Flags)
  | duplicateName (name : String)
  | reservedName (name : String)
  | duplicateParameter (name : String)
  | invalidName (name : String)
deriving DecidableEq, Repr

def GrammarError.message : GrammarError → String
  | conflictingFlags flags =>
      s!"type flags {flags.display} are mutually exclusive: DECIMAL and INTEGER cannot be combined"
  | unsupportedFlags typeName requested supported =>
      s!"{typeName} does not support type flags {requested.display} (supported: {supported.display})"
  | duplicateName name => s!"'{name}' is already registered in this grammar"
  | reservedName name => s!"parameter '{name}' collides with a reserved name"
  | duplicateParameter name => s!"parameter '{name}' is declared more than once"
  | invalidName name => s!"'{name}' is not a valid identifier"

inductive Error where
  | parse (error : ParseError)
  | grammar (error : GrammarError)
  | eval (error : EvalError)
deriving DecidableEq, Repr

-- The text shown to a user; `expression` is read only where the error does not hold it.
def Error.render (error : Error) (expression : String) : String :=
  match error with
  | parse error => error.message ++ "\n" ++ error.pointer
  | grammar error => error.message
  | eval error => error.render expression

end Formula
