import Formula.Text.Property
import Formula.Text.Letter

/-!
Character classes and letter case. Up to U+007F a class is decided by its own rule; the boundary
lists and case runs say the rest.
-/

set_option autoImplicit false

namespace Formula.Text

def isAscii (c : Char) : Bool := decide (c.toNat < 128)

def isWhiteSpace (c : Char) : Bool :=
  if isAscii c then c = ' ' || ('\t' ≤ c && c ≤ '\r') else inside c.toNat Property.whiteSpace

def isAlphabetic (c : Char) : Bool :=
  if isAscii c then c.isAlpha else inside c.toNat Property.alphabetic

def isNumeric (c : Char) : Bool :=
  if isAscii c then c.isDigit else inside c.toNat Property.numeric

def isCased (c : Char) : Bool :=
  if isAscii c then c.isAlpha else inside c.toNat Property.cased

def isCaseIgnorable (c : Char) : Bool :=
  if isAscii c then c ∈ ['\'', '.', ':', '^', '\x60'] else inside c.toNat Property.caseIgnorable

-- An expansion wins over a run, and a character in neither is its own image.
def convert (runs : List Run) (expansions : List (Nat × List Nat)) (c : Char) : List Char :=
  match expansions.lookup c.toNat with
  | some image => image.map Char.ofNat
  | none =>
      match image? c.toNat runs with
      | some image => [Char.ofNat image]
      | none => [c]

def lower (c : Char) : List Char :=
  if isAscii c then [c.toLower] else convert Letter.lower Letter.lowerExpansions c

def upper (c : Char) : List Char :=
  if isAscii c then [c.toUpper] else convert Letter.upper Letter.upperExpansions c

def meetsCased (text : List Char) : Bool :=
  match text.dropWhile isCaseIgnorable with
  | [] => false
  | c :: _ => isCased c

-- A sigma that ends its word has a lower form of its own. `before` runs backwards.
def lowercaseAfter (before : List Char) : List Char → List Char
  | [] => []
  | c :: rest =>
      let image :=
        if c = 'Σ' then
          if meetsCased before && !meetsCased rest then ['ς'] else ['σ']
        else
          lower c
      image ++ lowercaseAfter (c :: before) rest

def lowercase (text : String) : String :=
  String.ofList (lowercaseAfter [] text.toList)

-- Two characters are one letter when they, or their lower forms, agree.
def sameLetter (caseSensitive : Bool) (a b : Char) : Bool :=
  a = b || (!caseSensitive && lower a = lower b)

def caseVariants (c : Char) : List Char :=
  (c :: lower c ++ upper c).foldl (fun kept d => if d ∈ kept then kept else kept ++ [d]) []

end Formula.Text
