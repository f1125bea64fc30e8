import Formula.Error.Eval

set_option autoImplicit false

namespace Formula

-- A computation over the host's state. What it did to the state stays done when it fails.
abbrev Run (σ α : Type) := ExceptT EvalError (StateM σ) α

def Run.ofExcept {σ α : Type} (outcome : Except EvalError α) : Run σ α := fun state =>
  (outcome, state)

-- How far a routine can be trusted before the host is running: a function that may depend on the
-- state is called only by an evaluation, the others wherever their arguments are known.
inductive RoutineKind where
  | function
  | impureFunction
  | constructor
deriving DecidableEq, Repr

-- The tag tells apart routines that share a name; one grammar never holds two of those.
structure Routine (T σ : Type) where
  kind : RoutineKind
  name : String
  arity : Nat
  body : List T → Run σ T
  tag : Nat

namespace Routine

variable {T σ : Type}

def isFoldable (routine : Routine T σ) : Bool := routine.kind ≠ .impureFunction

def identical (a b : Routine T σ) : Bool := a.kind = b.kind && a.name = b.name && a.tag = b.tag

def call (routine : Routine T σ) (args : List T) : Run σ T :=
  if args.length = routine.arity then
    routine.body args
  else
    throw (.argumentCount routine.name routine.arity args.length)

end Routine

-- A property is computed and never changes; a cell is written by the host, and a cell that cannot
-- be read holds no value.
inductive MemberSource (T σ : Type) where
  | property (get : StateM σ T)
  | cell (get : σ → Option T)

structure Member (T σ : Type) where
  name : String
  source : MemberSource T σ
  tag : Nat

namespace Member

variable {T σ : Type}

def isReadOnly (m : Member T σ) : Bool :=
  match m.source with
  | .property _ => true
  | .cell _ => false

def identical (a b : Member T σ) : Bool :=
  a.isReadOnly = b.isReadOnly && a.name = b.name && a.tag = b.tag

def read (m : Member T σ) : Run σ T :=
  match m.source with
  | .property get => ExceptT.lift get
  | .cell get => do
      match get (← getThe σ) with
      | some value => return value
      | none => throw (.extension m.name "variable lock is poisoned")

end Member

end Formula
