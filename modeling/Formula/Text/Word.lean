import Formula.Text.Case
import Formula.Text.Offset

set_option autoImplicit false

namespace Formula.Text

def isIdentifierStart (c : Char) : Bool :=
  isAlphabetic c || c = '_'

def isIdentifierContinue (c : Char) : Bool :=
  isAlphabetic c || isNumeric c || c = '_'

-- Grouping characters are left out, so a stray one never joins a run of symbols.
def isOperatorContinue (c : Char) : Bool :=
  !isWhiteSpace c && !isIdentifierContinue c && !(c ∈ ['(', ')', ','])

def begins (caseSensitive : Bool) : List Char → List Char → Bool
  | [], _ => true
  | _ :: _, [] => false
  | expected :: name, found :: text =>
      sameLetter caseSensitive found expected && begins caseSensitive name text

-- The first character belongs to the run whatever it is.
def runLength (keep : Char → Bool) : List Char → Nat
  | [] => 0
  | _ :: rest => 1 + (rest.takeWhile keep).length

def endsWord : List Char → Bool
  | [] => true
  | c :: _ => !isIdentifierContinue c

def isIdentifier : List Char → Bool
  | [] => false
  | c :: rest => isIdentifierStart c && rest.all isIdentifierContinue

-- `word` is the part since the last point, backwards.
def isQualifiedFrom (word : List Char) : List Char → Bool
  | [] => isIdentifier word.reverse
  | c :: rest =>
      if c = '.' then isIdentifier word.reverse && isQualifiedFrom [] rest
      else isQualifiedFrom (c :: word) rest

def isQualified (name : List Char) : Bool :=
  isQualifiedFrom [] name

def matchAt? (caseSensitive : Bool) (name text : List Char) (start : Nat) : Option Nat := do
  let rest ← dropBytes? start text
  if begins caseSensitive name rest then
    some (start + width (rest.take name.length))
  else
    none

def runEnd? (keep : Char → Bool) (text : List Char) (start : Nat) : Option Nat := do
  let rest ← dropBytes? start text
  return start + width (rest.take (runLength keep rest))

end Formula.Text
