/-!
Byte offsets into a text that is held as characters. An offset counts the bytes of the UTF-8 form,
so not every number is one.
-/

set_option autoImplicit false

namespace Formula.Text

def width : List Char → Nat
  | [] => 0
  | c :: rest => c.utf8Size + width rest

-- How many characters fill exactly the first `bytes` bytes, if some number does.
def charactersIn? : Nat → List Char → Option Nat
  | 0, _ => some 0
  | _ + 1, [] => none
  | bytes + 1, c :: rest =>
      if c.utf8Size ≤ bytes + 1 then
        (charactersIn? (bytes + 1 - c.utf8Size) rest).map (· + 1)
      else
        none

def dropBytes? (bytes : Nat) (text : List Char) : Option (List Char) :=
  (charactersIn? bytes text).map text.drop

-- The characters between two offsets, in order and both on character boundaries.
def slice? (start stop : Nat) (text : List Char) : Option (List Char) :=
  if start ≤ stop then do
    let rest ← dropBytes? start text
    let count ← charactersIn? (stop - start) rest
    return rest.take count
  else
    none

end Formula.Text
