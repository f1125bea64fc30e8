import Formula.Span
import Formula.Text.Caret

set_option autoImplicit false

namespace Formula

inductive ParseErrorKind where
  | unknownIdentifier
  | unknownOperator
  | invalidLiteral
  | mismatchedParentheses
  | mismatchedClosingParenthesis
  | misplacedSeparator
  | missingOperand
  | unexpectedOperator
  | expectedArguments
  | emptyGroup
deriving DecidableEq, Repr

def ParseErrorKind.isLexical : ParseErrorKind → Bool
  | unknownIdentifier | unknownOperator | invalidLiteral => true
  | _ => false

-- A fault in the text of an expression. One at the end of the text has no end of its own.
structure ParseError where
  kind : ParseErrorKind
  expression : String
  start : Nat
  stop : Option Nat
  details : String
deriving DecidableEq, Repr

namespace ParseError

def span (error : ParseError) : Span :=
  ⟨error.start, error.stop.getD error.start⟩

def offendingText (error : ParseError) : String :=
  error.span.slice error.expression.toList

def message (error : ParseError) : String :=
  match error.stop with
  | some stop =>
      if error.start + 1 < stop then s!"{error.details} at offsets {error.start}..{stop}"
      else s!"{error.details} at offset {error.start}"
  | none => s!"{error.details} at offset {error.start}"

def pointer (error : ParseError) : String :=
  Text.caretLine error.expression error.start error.stop

end ParseError

end Formula
