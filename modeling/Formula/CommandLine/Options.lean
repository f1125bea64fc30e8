set_option autoImplicit false

namespace Formula.CommandLine

inductive Mode where
  | float
  | decimal
  | int
  | uint
deriving DecidableEq, Repr

-- Options without a value. All but the last may be given once.
inductive Switch where
  | caseSensitive
  | noOptimize
  | tokens
  | tree
  | file
  | verbose
deriving DecidableEq, Repr

inductive Setting where
  | mode
  | param
deriving DecidableEq, Repr

structure Options where
  mode : Option Mode
  params : List String
  switches : List Switch
  expression : String
deriving DecidableEq, Repr

namespace Options

def has (options : Options) (switch : Switch) : Bool := switch ∈ options.switches

def verbosity (options : Options) : Nat := options.switches.count .verbose

end Options

def modeNamed? : String → Option Mode
  | "float" => some .float
  | "decimal" => some .decimal
  | "int" => some .int
  | "uint" => some .uint
  | _ => none

def longOption? : String → Option (Switch ⊕ Setting)
  | "mode" => some (.inr .mode)
  | "param" => some (.inr .param)
  | "case-sensitive" => some (.inl .caseSensitive)
  | "no-optimize" => some (.inl .noOptimize)
  | "tokens" => some (.inl .tokens)
  | "tree" => some (.inl .tree)
  | "file" => some (.inl .file)
  | "verbose" => some (.inl .verbose)
  | _ => none

def shortOption? : Char → Option (Switch ⊕ Setting)
  | 'm' => some (.inr .mode)
  | 'p' => some (.inr .param)
  | 'c' => some (.inl .caseSensitive)
  | 'f' => some (.inl .file)
  | 'v' => some (.inl .verbose)
  | _ => none

structure Given where
  mode : Option Mode
  params : List String
  switches : List Switch
  expression : Option String

namespace Given

def nothing : Given := ⟨none, [], [], none⟩

def turnOn? (given : Given) (switch : Switch) : Option Given :=
  if switch = .verbose || !(switch ∈ given.switches) then
    some { given with switches := given.switches ++ [switch] }
  else
    none

def assign? (given : Given) (setting : Setting) (text : String) : Option Given :=
  match setting with
  | .param => some { given with params := given.params ++ [text] }
  | .mode =>
      if given.mode.isSome then none
      else (modeNamed? text).map fun mode => { given with mode := some mode }

def position? (given : Given) (text : String) : Option Given :=
  if given.expression.isSome then none else some { given with expression := some text }

def positions? (given : Given) (texts : List String) : Option Given :=
  texts.foldlM position? given

-- Reads what follows two dashes. A setting without an equals sign waits for the next argument.
def long? (given : Given) (text : List Char) : Option (Given × Option Setting) :=
  let name := String.ofList (text.takeWhile (· ≠ '='))
  let value := (text.dropWhile (· ≠ '=')).tail
  let hasValue := '=' ∈ text
  match longOption? name with
  | some (.inl switch) =>
      if hasValue then none else (given.turnOn? switch).map fun given => (given, none)
  | some (.inr setting) =>
      if hasValue then
        (given.assign? setting (String.ofList value)).map fun given => (given, none)
      else
        some (given, some setting)
  | none => none

-- Reads letters after one dash. What stands behind a setting's letter is its value.
def shorts? (given : Given) : List Char → Option (Given × Option Setting)
  | [] => some (given, none)
  | c :: rest =>
      match shortOption? c with
      | some (.inl switch) =>
          match given.turnOn? switch with
          | some given => given.shorts? rest
          | none => none
      | some (.inr setting) =>
          match rest with
          | [] => some (given, some setting)
          | '=' :: value =>
              (given.assign? setting (String.ofList value)).map fun given => (given, none)
          | value => (given.assign? setting (String.ofList value)).map fun given => (given, none)
      | none => none

-- A setting that waits for its value takes no argument that looks like an option.
def read? (given : Given) (waiting : Option Setting) : List String → Option Given
  | [] => if waiting.isSome then none else some given
  | arg :: rest =>
      match arg.toList with
      | ['-', '-'] => if waiting.isSome then none else given.positions? rest
      | '-' :: '-' :: text =>
          if waiting.isSome then none
          else
            match given.long? text with
            | some (given, waiting) => given.read? waiting rest
            | none => none
      | '-' :: c :: text =>
          if waiting.isSome then none
          else
            match given.shorts? (c :: text) with
            | some (given, waiting) => given.read? waiting rest
            | none => none
      | _ =>
          match waiting with
          | some setting =>
              match given.assign? setting arg with
              | some given => given.read? none rest
              | none => none
          | none =>
              match given.position? arg with
              | some given => given.read? none rest
              | none => none

end Given

def Options.ofArgs? (args : List String) : Option Options := do
  let given ← Given.nothing.read? none args
  let expression ← given.expression
  return ⟨given.mode, given.params, given.switches, expression⟩

end Formula.CommandLine
