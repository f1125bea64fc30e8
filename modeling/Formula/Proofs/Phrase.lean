import Formula.Grammar

/-!
The grammar of infix expressions, with its derivations as data. A phrase keeps every token that it
was written with; `tokens` writes it down again, `tree?` is what it stands for.
-/

set_option autoImplicit false

namespace Formula

namespace Token

variable {T σ : Type}

def lone (token : Token T σ) : Token T σ :=
  if token.form.isPrefix then token
  else
    match token.alone with
    | some form => { token with form := form }
    | none => token

def leaf? (token : Token T σ) : Option (Expr T σ) :=
  match token.form.action with
  | .literal value => some (.node (.constant value none))
  | .bound name value => some (.node (.constant value (some name)))
  | .parameter index => some (.node (.parameter index))
  | .member source => some (.node (.member source))
  | _ => none

def combine? (token : Token T σ) (args : List (Expr T σ)) : Option (Expr T σ) :=
  match token.form.action, args with
  | .unary op, [operand] => some (.node (.unary op operand token.span))
  | .convert conversion, [operand] => some (.node (.convert conversion operand token.span))
  | .binary op, [left, right] => some (.node (.binary op left right token.span))
  | .conditional, [condition, accepted, rejected] =>
      some (.node (.conditional condition accepted rejected))
  | .call routine, args =>
      if args.length = routine.arity then some (.node (.call routine args token.span)) else none
  | _, _ => none

def arity? (token : Token T σ) : Option Nat :=
  match token.form.action with
  | .unary _ | .convert _ => some 1
  | .binary _ => some 2
  | .conditional => some 3
  | .call routine => some routine.arity
  | _ => none

end Token

mutual
inductive Phrase (T σ : Type) where
  | operand (token : Token T σ)
  | group (opening : Token T σ) (inner : Phrase T σ) (closing : Token T σ)
  | emptyCall (name opening closing : Token T σ)
  | call (name opening : Token T σ) (args : Arguments T σ) (closing : Token T σ)
  | before (operator : Token T σ) (inner : Phrase T σ)
  | between (left : Phrase T σ) (operator : Token T σ) (right : Phrase T σ)
inductive Arguments (T σ : Type) where
  | one (arg : Phrase T σ)
  | more (args : Arguments T σ) (comma : Token T σ) (arg : Phrase T σ)
end

namespace Phrase

variable {T σ : Type}

mutual
def tokens : Phrase T σ → List (Token T σ)
  | .operand token => [token]
  | .group opening inner closing => opening :: (inner.tokens ++ [closing])
  | .emptyCall name opening closing => [name, opening, closing]
  | .call name opening args closing => name :: opening :: (argumentTokens args ++ [closing])
  | .before operator inner => operator :: inner.tokens
  | .between left operator right => left.tokens ++ operator :: right.tokens
def argumentTokens : Arguments T σ → List (Token T σ)
  | .one arg => arg.tokens
  | .more args comma arg => argumentTokens args ++ comma :: arg.tokens
end

mutual
def tree? : Phrase T σ → Option (Expr T σ)
  | .operand token => token.leaf?
  | .group _ inner _ => inner.tree?
  | .emptyCall name _ _ => name.combine? []
  | .call name _ args _ => (argumentTrees? args).bind name.combine?
  | .before operator inner => inner.tree?.bind fun a => operator.lone.combine? [a]
  | .between left operator right =>
      left.tree?.bind fun a => right.tree?.bind fun b => operator.combine? [a, b]
def argumentTrees? : Arguments T σ → Option (List (Expr T σ))
  | .one arg => arg.tree?.map fun a => [a]
  | .more args _ arg => (argumentTrees? args).bind fun init => arg.tree?.map fun a => init ++ [a]
end

-- The levels of binary operators, the loosest first: all group from the left but the tightest.
def levels : List (Nat × Role) :=
  [(1, .leftOperator), (5, .leftOperator), (10, .leftOperator), (20, .leftOperator),
    (30, .rightOperator)]

def primary : Nat := 50

def rank : Phrase T σ → Nat
  | .operand _ | .group _ _ _ | .emptyCall _ _ _ | .call _ _ _ _ => primary
  | .before _ _ => unaryPrecedence
  | .between _ operator _ => operator.form.precedence

def leftNeed (operator : Token T σ) : Nat :=
  if operator.role = .rightOperator then operator.form.precedence + 1 else operator.form.precedence

def rightNeed (operator : Token T σ) : Nat :=
  if operator.role = .rightOperator then operator.form.precedence else operator.form.precedence + 1

structure IsPrefix (operator : Token T σ) : Prop where
  role : operator.role.isOperator = true
  alone : operator.lone.form.isPrefix = true
  grouping : operator.lone.role = .rightOperator
  level : operator.lone.form.precedence = unaryPrecedence
  uncounted : operator.argc = none

structure IsBinary (operator : Token T σ) : Prop where
  action : ∃ op, operator.form.action = .binary op
  level : (operator.form.precedence, operator.role) ∈ levels
  uncounted : operator.argc = none

structure IsFunction (name : Token T σ) : Prop where
  role : name.role = .function
  action : (∃ routine, name.form.action = .call routine) ∨ name.form.action = .conditional ∨
    ∃ conversion, name.form.action = .convert conversion

-- What the tokens of a grammar promise: they are of the kinds that its sentences are made of.
structure Proper (token : Token T σ) : Prop where
  isPrefix : token.role.isOperator = true → token.lone.form.isPrefix = true → IsPrefix token
  isBinary : token.role.isOperator = true → token.form.isPrefix = false → IsBinary token
  isFunction : token.role = .function → IsFunction token
  alone : ∀ form, token.alone = some form → form.isPrefix = true
  known : token.role = .operand → token.leaf? = none → ∃ name, token.form.action = .unknown name

mutual
def Fits : Phrase T σ → Prop
  | .operand token => token.role = .operand
  | .group opening inner closing =>
      opening.role = .openParen ∧ inner.Fits ∧ closing.role = .closeParen
  | .emptyCall name opening closing =>
      IsFunction name ∧ opening.role = .openParen ∧ closing.role = .closeParen
  | .call name opening args closing =>
      IsFunction name ∧ opening.role = .openParen ∧ ArgumentsFit args ∧
        closing.role = .closeParen
  | .before operator inner => IsPrefix operator ∧ unaryPrecedence ≤ inner.rank ∧ inner.Fits
  | .between left operator right =>
      IsBinary operator ∧ leftNeed operator ≤ left.rank ∧ rightNeed operator ≤ right.rank ∧
        left.Fits ∧ right.Fits
def ArgumentsFit : Arguments T σ → Prop
  | .one arg => arg.Fits
  | .more args comma arg => ArgumentsFit args ∧ comma.role = .separator ∧ arg.Fits
end

def argumentCount : Arguments T σ → Nat
  | .one _ => 1
  | .more args _ _ => argumentCount args + 1

-- Every name is known, and every call has as many arguments as its function takes.
mutual
def Complete : Phrase T σ → Prop
  | .operand token => ∀ name, token.form.action ≠ .unknown name
  | .group _ inner _ => inner.Complete
  | .emptyCall name _ _ => name.arity? = some 0
  | .call name _ args _ => name.arity? = some (argumentCount args) ∧ ArgumentsComplete args
  | .before _ inner => inner.Complete
  | .between left _ right => left.Complete ∧ right.Complete
def ArgumentsComplete : Arguments T σ → Prop
  | .one arg => arg.Complete
  | .more args _ arg => ArgumentsComplete args ∧ arg.Complete
end

end Phrase

end Formula
