import Formula.Error.Parse
import Formula.Token

/-!
From the order in which tokens are written to the order in which they are computed: operands as
they come, each operator after its operands. Operators wait on a stack until one of a lower
precedence, or the end of their group, releases them.
-/

set_option autoImplicit false

namespace Formula

-- An open parenthesis: whether it opens the arguments of a call, the separators seen directly
-- inside it, and whether nothing has been seen there yet.
structure Frame where
  isCall : Bool
  separators : Nat
  isBlank : Bool
deriving DecidableEq, Repr

-- The tokens that wait, the last one first; the open parentheses, the innermost first; the role
-- of the token before; the place of a function name whose parenthesis has to come next.
structure Order (T σ : Type) where
  stack : List (Token T σ)
  frames : List Frame
  previous : Option Role
  pending : Option Span

namespace Order

variable {T σ : Type}

def start : Order T σ := ⟨[], [], none, none⟩

def expectsOperand (state : Order T σ) : Bool :=
  match state.previous with
  | some .operand | some .closeParen => false
  | _ => true

def markContent : List Frame → List Frame
  | [] => []
  | frame :: rest => { frame with isBlank := false } :: rest

def addSeparator : List Frame → List Frame
  | [] => []
  | frame :: rest => { frame with separators := frame.separators + 1 } :: rest

def errorAt (expression : String) (kind : ParseErrorKind) (span : Span) (details : String) :
    ParseError :=
  ⟨kind, expression, span.start, some span.stop, details⟩

-- What an incoming operator releases: operators that bind at least as tightly, or, before one that
-- groups from the right, more tightly.
def releases (incoming waiting : Token T σ) : Bool :=
  waiting.role.isOperator &&
    (if incoming.role = .rightOperator then
      decide (incoming.form.precedence < waiting.form.precedence)
    else
      decide (incoming.form.precedence ≤ waiting.form.precedence))

def isOpen (token : Token T σ) : Bool := token.role = .openParen

-- An operator takes its lone form where an operand is expected.
def placed (expression : String) (state : Order T σ) (token : Token T σ) :
    Except ParseError (Token T σ) :=
  if state.expectsOperand then
    if token.form.isPrefix then
      .ok token
    else
      match token.alone with
      | some form => .ok { token with form := form }
      | none =>
          .error (errorAt expression .missingOperand token.span
            s!"operator '{token.name}' is missing its left operand")
  else if token.form.isPrefix then
    .error (errorAt expression .unexpectedOperator token.span
      s!"prefix operator '{token.name}' cannot follow an operand")
  else
    .ok token

def acceptOperator (expression : String) (state : Order T σ) (token : Token T σ) :
    Except ParseError (List (Token T σ) × Order T σ) := do
  let token ← placed expression state token
  return (state.stack.takeWhile (releases token),
    { state with
      stack := token :: state.stack.dropWhile (releases token)
      frames := markContent state.frames
      previous := some token.role })

def checkOperand (expression : String) (state : Order T σ) (token : Token T σ) :
    Except ParseError Unit :=
  match state.previous with
  | some .leftOperator | some .rightOperator =>
      .error (errorAt expression .missingOperand token.span
        s!"expected an operand before '{token.name}'")
  | some .separator =>
      .error (errorAt expression .emptyGroup token.span "empty function argument")
  | _ => .ok ()

def acceptSeparator (expression : String) (state : Order T σ) (token : Token T σ) :
    Except ParseError (List (Token T σ) × Order T σ) := do
  if !state.frames.head?.any Frame.isCall then
    throw (errorAt expression .misplacedSeparator token.span "misplaced argument separator")
  if state.previous = some .openParen then
    throw (errorAt expression .emptyGroup token.span "empty function argument")
  checkOperand expression state token
  return (state.stack.takeWhile (!isOpen ·),
    { state with
      stack := state.stack.dropWhile (!isOpen ·)
      frames := addSeparator state.frames
      previous := some .separator })

-- Ends a group: a call is complete with its argument count, and any other group must hold
-- something.
def closeGroup (expression : String) (token : Token T σ) (frame : Frame)
    (stack : List (Token T σ)) : Except ParseError (List (Token T σ) × List (Token T σ)) :=
  if frame.isCall then
    match stack with
    | [] => .ok ([], [])
    | function :: rest =>
        .ok ([{ function with argc := some (if frame.isBlank then 0 else frame.separators + 1) }],
          rest)
  else if frame.isBlank then
    .error (errorAt expression .emptyGroup token.span "empty parentheses")
  else
    .ok ([], stack)

def acceptClose (expression : String) (state : Order T σ) (token : Token T σ) :
    Except ParseError (List (Token T σ) × Order T σ) := do
  checkOperand expression state token
  match state.stack.dropWhile (!isOpen ·) with
  | [] =>
      throw (errorAt expression .mismatchedClosingParenthesis token.span
        "mismatched closing parenthesis")
  | _ :: below =>
      let frame := state.frames.headD ⟨false, 0, false⟩
      let (completed, stack) ← closeGroup expression token frame below
      return (state.stack.takeWhile (!isOpen ·) ++ completed,
        { state with
          stack := stack
          frames := state.frames.tail
          previous := some .closeParen })

def expectedArguments (expression : String) (span : Span) : ParseError :=
  errorAt expression .expectedArguments span
    s!"expected '(' after function '{span.slice expression.toList}'"

def accept (expression : String) (state : Order T σ) (token : Token T σ) :
    Except ParseError (List (Token T σ) × Order T σ) :=
  match state.pending, token.role with
  | pending, .openParen =>
      .ok ([],
        { stack := token :: state.stack
          frames := ⟨pending.isSome, 0, true⟩ :: markContent state.frames
          previous := some .openParen
          pending := none })
  | some span, _ => .error (expectedArguments expression span)
  | none, .operand =>
      .ok ([token],
        { state with frames := markContent state.frames, previous := some .operand })
  | none, .function =>
      .ok ([],
        { stack := token :: state.stack
          frames := markContent state.frames
          previous := some .function
          pending := some token.span })
  | none, .leftOperator | none, .rightOperator => acceptOperator expression state token
  | none, .closeParen => acceptClose expression state token
  | none, .separator => acceptSeparator expression state token

def finish (expression : String) (state : Order T σ) : Except ParseError (List (Token T σ)) :=
  match state.pending with
  | some span => .error (expectedArguments expression span)
  | none =>
      if state.previous.any Role.isOperator then
        .error ⟨.missingOperand, expression, Text.width expression.toList, none,
          "expected an operand at end of input"⟩
      else
        match state.stack.find? isOpen with
        | some token =>
            .error (errorAt expression .mismatchedParentheses token.span "mismatched parentheses")
        | none => .ok state.stack

-- What a step that fails would have let out is lost with it.
def orderFrom (expression : String) (state : Order T σ) :
    List (Except ParseError (Token T σ)) → List (Except ParseError (Token T σ))
  | [] =>
      match finish expression state with
      | .ok tokens => tokens.map .ok
      | .error error => [.error error]
  | .error error :: _ => [.error error]
  | .ok token :: rest =>
      match accept expression state token with
      | .ok (tokens, state) => tokens.map .ok ++ orderFrom expression state rest
      | .error error => [.error error]

end Order

def Postfix.order {T σ : Type} (expression : String)
    (items : List (Except ParseError (Token T σ))) : List (Except ParseError (Token T σ)) :=
  Order.orderFrom expression Order.start items

end Formula
