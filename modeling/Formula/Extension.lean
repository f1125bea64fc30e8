import Formula.Grammar

set_option autoImplicit false

namespace Formula

inductive Offer (T σ : Type) where
  | routine (kind : RoutineKind) (arity : Nat) (body : List T → Run σ T)
  | constant (value : T)
  | member (source : MemberSource T σ)

-- A list of named offers. The label only names the list in messages; the qualifier goes before
-- every name.
structure Extension (T σ : Type) where
  label : String
  qualifier : Option String
  offers : List (String × Offer T σ)

namespace Extension

variable {T σ : Type}

def empty (label : String) : Extension T σ := ⟨label, none, []⟩

def add (extension : Extension T σ) (name : String) (offer : Offer T σ) : Extension T σ :=
  { extension with offers := extension.offers ++ [(name, offer)] }

def function (extension : Extension T σ) (name : String) (arity : Nat)
    (body : List T → Run σ T) : Extension T σ :=
  extension.add name (.routine .function arity body)

def constant (extension : Extension T σ) (name : String) (value : T) : Extension T σ :=
  extension.add name (.constant value)

def constructor (extension : Extension T σ) (name : String) (arity : Nat)
    (body : List T → Run σ T) : Extension T σ :=
  extension.add name (.routine .constructor arity body)

-- Only the offers move; the other list's qualifier stays behind.
def merge (extension other : Extension T σ) : Extension T σ :=
  { extension with offers := extension.offers ++ other.offers }

def qualify (extension : Extension T σ) (name : String) : String :=
  match extension.qualifier with
  | some qualifier => qualifier ++ "." ++ name
  | none => name

def template (name : String) : Offer T σ → Template T σ
  | .routine kind arity body => .function name (.call ⟨kind, name, arity, body, 0⟩)
  | .constant value => .operand name (.bound name value)
  | .member source => .operand name (.member ⟨name, source, 0⟩)

-- Adds offers to a grammar and counts them. A name that is already taken keeps its meaning.
def registerFrom (extension : Extension T σ) (grammar : Grammar T σ) (count : Nat) :
    List (String × Offer T σ) → Except GrammarError (Grammar T σ × Nat)
  | [] => .ok (grammar, count)
  | (name, offer) :: rest =>
      let name := extension.qualify name
      if grammar.isReserved name then
        extension.registerFrom grammar count rest
      else
        match grammar.registerIdentifier (template name offer) with
        | .ok grammar => extension.registerFrom grammar (count + 1) rest
        | .error error => .error error

def register (extension : Extension T σ) (grammar : Grammar T σ) :
    Except GrammarError (Grammar T σ × Nat) :=
  extension.registerFrom grammar 0 extension.offers

end Extension

end Formula
