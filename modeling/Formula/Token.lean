import Formula.Expr
import Formula.Postfix

set_option autoImplicit false

namespace Formula

inductive Role where
  | operand
  | leftOperator
  | rightOperator
  | function
  | openParen
  | closeParen
  | separator
deriving DecidableEq, Repr

namespace Role

def isOperator : Role → Bool
  | leftOperator | rightOperator => true
  | _ => false

def display : Role → String
  | operand => "operand"
  | leftOperator => "left-assoc operator"
  | rightOperator => "right-assoc operator"
  | function => "function"
  | openParen => "open paren"
  | closeParen => "close paren"
  | separator => "separator"

end Role

inductive Action (T σ : Type) where
  | literal (value : T)
  | bound (name : String) (value : T)
  | parameter (index : Nat)
  | member (source : Member T σ)
  | unary (op : UnaryOperator)
  | binary (op : BinaryOperator)
  | convert (conversion : Conversion)
  | call (routine : Routine T σ)
  | conditional
  -- A name that was let through although nobody knows it.
  | unknown (name : String)
  | punctuation

structure Form (T σ : Type) where
  name : String
  role : Role
  precedence : Nat
  action : Action T σ

-- An operator whose only operand stands on its right.
def Form.isPrefix {T σ : Type} (form : Form T σ) : Bool :=
  form.role.isOperator &&
    match form.action with
    | .unary _ | .convert _ => true
    | _ => false

-- A name of a grammar with the form it takes where an operand is expected, if it has one.
structure Template (T σ : Type) where
  form : Form T σ
  alone : Option (Form T σ)

namespace Template

variable {T σ : Type}

def name (template : Template T σ) : String := template.form.name

def punctuation (name : String) (role : Role) : Template T σ :=
  ⟨⟨name, role, 0, .punctuation⟩, none⟩

def leftBinary (name : String) (op : BinaryOperator) (precedence : Nat)
    (alone : Option (Form T σ)) : Template T σ :=
  ⟨⟨name, .leftOperator, precedence, .binary op⟩, alone⟩

def rightBinary (name : String) (op : BinaryOperator) (precedence : Nat)
    (alone : Option (Form T σ)) : Template T σ :=
  ⟨⟨name, .rightOperator, precedence, .binary op⟩, alone⟩

-- Operators before their operand group from right to left.
def before (name : String) (action : Action T σ) (precedence : Nat) : Template T σ :=
  ⟨⟨name, .rightOperator, precedence, action⟩, none⟩

def function (name : String) (action : Action T σ) : Template T σ :=
  ⟨⟨name, .function, 0, action⟩, none⟩

def operand (name : String) (action : Action T σ) : Template T σ :=
  ⟨⟨name, .operand, 0, action⟩, none⟩

end Template

-- A template found at a place. The argument count is known once a call has been closed.
structure Token (T σ : Type) where
  span : Span
  form : Form T σ
  alone : Option (Form T σ)
  argc : Option Nat

namespace Token

variable {T σ : Type}

def ofTemplate (template : Template T σ) (span : Span) : Token T σ :=
  ⟨span, template.form, template.alone, none⟩

def name (token : Token T σ) : String := token.form.name

def role (token : Token T σ) : Role := token.form.role

def missing (token : Token T σ) : EvalError :=
  .malformed s!"'{token.name}' is missing an operand"

-- Takes operands from a stack, in the order of the text. A wrong argument count is reported
-- before a stack that is too short.
def take (token : Token T σ) (stack : Option (List (Expr T σ))) (arity : Nat) :
    Except EvalError (List (Expr T σ) × List (Expr T σ)) :=
  if token.argc.getD arity ≠ arity then
    .error (.argumentCount token.name arity (token.argc.getD arity))
  else
    match stack with
    | none => .error token.missing
    | some stack =>
        if stack.length < arity then .error token.missing
        else .ok ((stack.take arity).reverse, stack.drop arity)

def build (token : Token T σ) (stack : Option (List (Expr T σ))) :
    Except EvalError (Expr T σ × List (Expr T σ)) :=
  let leaf (shape : Shape T σ (Expr T σ)) := .ok (.node shape, stack.getD [])
  match token.form.action with
  | .literal value => leaf (.constant value none)
  | .bound name value => leaf (.constant value (some name))
  | .parameter index => leaf (.parameter index)
  | .member source => leaf (.member source)
  | .unknown name => .error (.unknownIdentifier name)
  | .punctuation => .error (.malformed s!"unexpected '{token.name}'")
  | .unary op => do
      match ← token.take stack 1 with
      | ([operand], rest) => return (.node (.unary op operand token.span), rest)
      | _ => throw token.missing
  | .convert conversion => do
      match ← token.take stack 1 with
      | ([operand], rest) => return (.node (.convert conversion operand token.span), rest)
      | _ => throw token.missing
  | .binary op => do
      match ← token.take stack 2 with
      | ([left, right], rest) => return (.node (.binary op left right token.span), rest)
      | _ => throw token.missing
  | .conditional => do
      match ← token.take stack 3 with
      | ([condition, accepted, rejected], rest) =>
          return (.node (.conditional condition accepted rejected), rest)
      | _ => throw token.missing
  | .call routine => do
      let (args, rest) ← token.take stack routine.arity
      return (.node (.call routine args token.span), rest)

def builder : Postfix.Builder (Token T σ) EvalError (Expr T σ) where
  isOperand token := token.role = .operand
  leaf token := (token.build none).map Prod.fst
  node token stack := token.build (some stack)

end Token

structure TokenInfo where
  role : Role
  span : Span
  text : String
deriving DecidableEq, Repr

namespace TokenInfo

def ofToken {T σ : Type} (text : List Char) (token : Token T σ) : TokenInfo :=
  ⟨token.role, token.span, token.span.slice text⟩

def padLeft (width : Nat) (text : String) : String :=
  String.ofList (List.replicate (width - text.length) ' ') ++ text

def padRight (width : Nat) (text : String) : String :=
  text ++ String.ofList (List.replicate (width - text.length) ' ')

def display (info : TokenInfo) : String :=
  padLeft 4 (toString info.span.start) ++ ".." ++ padRight 4 (toString info.span.stop) ++ " " ++
    padRight 22 info.role.display ++ " " ++ info.text

end TokenInfo

end Formula
