import Formula.Error
import Formula.Text.Word
import Formula.Token

set_option autoImplicit false

namespace Formula

-- Reads a literal at an offset of a whole text: its value and its end, `none` where none starts,
-- or why the literal that starts there has no value.
abbrev Reader (T : Type) := List Char → Nat → Flags → Except String (Option (T × Nat))

structure Entry (T σ : Type) where
  leads : List Char
  template : Template T σ

structure Grammar (T σ : Type) where
  flags : Flags
  operators : List (Entry T σ)
  identifiers : List (Entry T σ)
  reserved : List String
  whitespace : List Char
  reader : Reader T

def unaryPrecedence : Nat := 40

namespace Grammar

variable {T σ : Type}

def caseSensitive (grammar : Grammar T σ) : Bool := grammar.flags.caseSensitive

def key (grammar : Grammar T σ) (name : String) : String :=
  if grammar.caseSensitive then name else Text.lowercase name

def isReserved (grammar : Grammar T σ) (name : String) : Bool :=
  grammar.key name ∈ grammar.reserved

def leads (grammar : Grammar T σ) (name : String) : List Char :=
  match name.toList with
  | [] => []
  | c :: _ => if grammar.caseSensitive then [c] else Text.caseVariants c

def entry (grammar : Grammar T σ) (template : Template T σ) : Entry T σ :=
  ⟨grammar.leads template.name, template⟩

def registerOperator (grammar : Grammar T σ) (template : Template T σ) :
    Except GrammarError (Grammar T σ) :=
  if grammar.isReserved template.name then
    .error (.duplicateName template.name)
  else
    .ok { grammar with
      reserved := grammar.reserved ++ [grammar.key template.name]
      operators := grammar.operators ++ [grammar.entry template] }

def registerIdentifier (grammar : Grammar T σ) (template : Template T σ) :
    Except GrammarError (Grammar T σ) :=
  if !Text.isQualified template.name.toList then
    .error (.invalidName template.name)
  else if grammar.isReserved template.name then
    .error (.duplicateName template.name)
  else
    .ok { grammar with
      reserved := grammar.reserved ++ [grammar.key template.name]
      identifiers := grammar.identifiers ++ [grammar.entry template] }

def punctuationTemplates : List (Template T σ) :=
  [.punctuation "(" .openParen, .punctuation ")" .closeParen, .punctuation "," .separator]

def numericTemplates : List (Template T σ) :=
  [.leftBinary "+" .add 10 (some ⟨"+", .rightOperator, unaryPrecedence, .convert .identity⟩),
    .leftBinary "-" .sub 10 (some ⟨"-", .rightOperator, unaryPrecedence, .unary .negate⟩),
    .leftBinary "*" .mul 20 none, .leftBinary "/" .div 20 none, .leftBinary "%" .rem 20 none]

def decimalTemplates : List (Template T σ) :=
  [.rightBinary "^" .pow 30 none, .leftBinary "<<" .shl 5 none, .leftBinary ">>" .shr 5 none]

def integerTemplates : List (Template T σ) :=
  [.leftBinary "<<" .shl 5 none, .leftBinary ">>" .shr 5 none, .leftBinary "|" .bitOr 1 none,
    .leftBinary "&" .bitAnd 1 none, .leftBinary "^" .bitXor 1 none,
    .before "~" (.unary .complement) unaryPrecedence,
    .before "!" (.unary .complement) unaryPrecedence]

def builtinOperators (flags : Flags) : List (Template T σ) :=
  punctuationTemplates ++ (if flags.numeric then numericTemplates else []) ++
    (if flags.decimal then decimalTemplates else []) ++
    (if flags.integer then integerTemplates else [])

def builtinIdentifiers : List (Template T σ) :=
  [.function "if" .conditional, .function "trunc" (.convert .integral)]

def standard [Numeric T] (flags : Flags) (reader : Reader T) (whitespace : List Char) :
    Except GrammarError (Grammar T σ) := do
  if flags.decimal && flags.integer then throw (.conflictingFlags flags)
  let requested := { flags with caseSensitive := false }
  if !(Numeric.supported T).contains requested then
    throw (.unsupportedFlags (Numeric.name T) requested (Numeric.supported T))
  let grammar : Grammar T σ := ⟨flags, [], [], [], whitespace, reader⟩
  let grammar ← (builtinOperators flags).foldlM registerOperator grammar
  builtinIdentifiers.foldlM registerIdentifier grammar

def sorted (names : List String) : List String := names.mergeSort (fun a b => !(b < a))

def operatorNames (grammar : Grammar T σ) : List String :=
  sorted (grammar.operators.map fun entry => entry.template.name)

def identifierNames (grammar : Grammar T σ) : List String :=
  sorted (grammar.identifiers.map fun entry => entry.template.name)

def isWhitespace (grammar : Grammar T σ) (c : Char) : Bool :=
  Text.isWhiteSpace c || c ∈ grammar.whitespace

-- The longest of some matches, and the last of those of one length.
def longest {α : Type} (found : List (α × Nat)) : Option (α × Nat) :=
  found.foldl (fun best candidate =>
    match best with
    | none => some candidate
    | some kept => if kept.2 ≤ candidate.2 then some candidate else some kept) none

-- A name matches as many characters as it has, so its length is that of the match.
def candidates (grammar : Grammar T σ) (entries : List (Entry T σ)) (text : List Char) :
    List (Template T σ × Nat) :=
  match text with
  | [] => []
  | first :: _ => entries.filterMap fun entry =>
      let name := entry.template.name.toList
      if first ∈ entry.leads && Text.begins grammar.caseSensitive name text then
        some (entry.template, name.length)
      else
        none

def matchOperator (grammar : Grammar T σ) (text : List Char) : Option (Template T σ × Nat) :=
  longest (grammar.candidates grammar.operators text)

-- The longest name that the text starts with, no letter or digit coming after it.
def matchIdentifier (grammar : Grammar T σ) (text : List Char) : Option (Template T σ × Nat) :=
  longest ((grammar.candidates grammar.identifiers text).filter fun (_, length) =>
    Text.endsWord (text.drop length))

def read (grammar : Grammar T σ) (text : List Char) (start : Nat) :
    Except String (Option (T × Nat)) :=
  grammar.reader text start grammar.flags

end Grammar

structure Parameters where
  names : List String
  caseSensitive : Bool
deriving DecidableEq, Repr

namespace Parameters

def find? (parameters : Parameters) (text : List Char) : Option (Nat × Nat) :=
  Grammar.longest (parameters.names.zipIdx.filterMap fun (name, index) =>
    let name := name.toList
    if Text.begins parameters.caseSensitive name text &&
        Text.endsWord (text.drop name.length) then
      some (index, name.length)
    else
      none)

end Parameters

namespace Grammar

variable {T σ : Type}

def checkParameters (grammar : Grammar T σ) (taken : List String) :
    List String → Except GrammarError Unit
  | [] => .ok ()
  | name :: rest =>
      if !Text.isIdentifier name.toList then .error (.invalidName name)
      else if grammar.isReserved name then .error (.reservedName name)
      else if grammar.key name ∈ taken then .error (.duplicateParameter name)
      else grammar.checkParameters (grammar.key name :: taken) rest

def bindParameters (grammar : Grammar T σ) (names : List String) :
    Except GrammarError Parameters :=
  (grammar.checkParameters [] names).map fun _ => ⟨names, grammar.caseSensitive⟩

end Grammar

end Formula
