import Formula.Grammar

/-!
Splitting a text into tokens. Every token takes at least the character it starts with, so what is
left of the text gets shorter with each.
-/

set_option autoImplicit false

namespace Formula

structure Source (T σ : Type) where
  grammar : Grammar T σ
  parameters : Parameters
  allowUnknown : Bool
  expression : String

namespace Source

variable {T σ : Type}

def text (source : Source T σ) : List Char := source.expression.toList

-- An error over the first `length` characters of what is left of the text.
def errorOver (source : Source T σ) (kind : ParseErrorKind) (start : Nat) (rest : List Char)
    (length : Nat) (details : String) : ParseError :=
  ⟨kind, source.expression, start, some (start + Text.width (rest.take length)), details⟩

def literalRun (rest : List Char) : Nat :=
  Text.runLength (fun c => Text.isIdentifierContinue c || c = '.') rest

def scanUnknown (source : Source T σ) (start : Nat) (rest : List Char) :
    Except ParseError (Template T σ × Nat) :=
  if rest.head?.any Text.isIdentifierStart then
    let length := Text.runLength Text.isIdentifierContinue rest
    let name := String.ofList (rest.take length)
    if source.allowUnknown then
      .ok (.operand name (.unknown name), length)
    else
      .error (source.errorOver .unknownIdentifier start rest length s!"unknown identifier '{name}'")
  else
    let length := Text.runLength Text.isOperatorContinue rest
    let name := String.ofList (rest.take length)
    .error (source.errorOver .unknownOperator start rest length s!"unknown operator '{name}'")

-- A reader may be anyone's, so the end that it returns is checked against the text.
def scanLiteral (source : Source T σ) (start : Nat) (rest : List Char) :
    Except ParseError (Template T σ × Nat) :=
  match source.grammar.read source.text start with
  | .error details =>
      .error (source.errorOver .invalidLiteral start rest (literalRun rest) details)
  | .ok none => source.scanUnknown start rest
  | .ok (some (value, stop)) =>
      if start < stop then
        match Text.charactersIn? (stop - start) rest with
        | some length => .ok (.operand (String.ofList (rest.take length)) (.literal value), length)
        | none =>
            .error (source.errorOver .invalidLiteral start rest (literalRun rest)
              (s!"value reader returned end offset {stop}, which is not a character boundary " ++
                "within the expression"))
      else
        source.scanUnknown start rest

-- The template at a place and its length in characters: an operator, a name, a parameter or a
-- literal, in this order.
def scan (source : Source T σ) (start : Nat) (rest : List Char) :
    Except ParseError (Template T σ × Nat) :=
  match (source.grammar.matchOperator rest).or (source.grammar.matchIdentifier rest) with
  | some found => .ok found
  | none =>
      match source.parameters.find? rest with
      | some (index, length) =>
          .ok (.operand (String.ofList (rest.take length)) (.parameter index), length)
      | none => source.scanLiteral start rest

def tokensFrom (source : Source T σ) (start : Nat) :
    List Char → List (Except ParseError (Token T σ))
  | [] => []
  | c :: rest =>
      if source.grammar.isWhitespace c then
        source.tokensFrom (start + c.utf8Size) rest
      else
        match source.scan start (c :: rest) with
        | .error error => [.error error]
        | .ok (template, length) =>
            let stop := start + Text.width (c :: rest.take (length - 1))
            .ok (.ofTemplate template ⟨start, stop⟩) ::
              source.tokensFrom stop (rest.drop (length - 1))
termination_by text => text.length
decreasing_by
  all_goals simp only [List.length_cons, List.length_drop]
  all_goals omega

def tokens (source : Source T σ) : List (Except ParseError (Token T σ)) :=
  source.tokensFrom 0 source.text

end Source

end Formula
